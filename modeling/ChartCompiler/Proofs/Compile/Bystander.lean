import ChartCompiler.Compile
import ChartCompiler.Proofs.Record.Bystander

/-!
# Charts pass over records that have nothing to do with them

Every kind of chart finds its fields among all records, then reads the records one after the other
and passes over those without a label in a field it cannot do without.  A bystander has no such
label wherever it stands, so the chart is compiled as if the bystander were not there.
-/

set_option autoImplicit false

namespace ChartCompiler

/-- The fields that a kind of chart looks for. -/
def ChartKind.wanted (kind : ChartKind) (config : Config) : List Candidates :=
  match kind with
  | bar | line | area | radar =>
    [ ⟨config.xField, categoryNames⟩, ⟨config.seriesField, []⟩, ⟨config.yField, valueNames⟩ ]
  | pie =>
    [ ⟨config.nameField.or config.xField, categoryNames⟩,
      ⟨config.valueField.or config.yField, valueNames⟩ ]
  | boxplot =>
    [ ⟨config.boxplot.minField, ["min", "low", "lower", "p0"]⟩,
      ⟨config.boxplot.q1Field, ["q1", "p25", "lower_quartile"]⟩,
      ⟨config.boxplot.medianField, ["median", "p50", "q2"]⟩,
      ⟨config.boxplot.q3Field, ["q3", "p75", "upper_quartile"]⟩,
      ⟨config.boxplot.maxField, ["max", "high", "upper", "p100"]⟩,
      ⟨config.xField, categoryNames⟩ ]
  | heatmap =>
    [ ⟨config.xField, categoryNames⟩, ⟨config.seriesField, Heatmap.rowNames⟩,
      ⟨config.valueField.or config.yField, valueNames⟩ ]
  | sankey =>
    [ ⟨config.network.sourceField, sourceNames⟩, ⟨config.network.targetField, targetNames⟩,
      ⟨config.valueField.or config.network.weightField, valueNames⟩ ]
  | sunburst =>
    [ ⟨config.sunburst.pathField.or config.xField, ["path", "category", "label", "name"]⟩,
      ⟨config.valueField.or config.yField, valueNames⟩ ]
  | wordCloud =>
    [ ⟨config.wordCloud.wordField.or config.xField,
        ["word", "text", "token", "term", "name", "label"]⟩,
      ⟨config.valueField.or config.yField, valueNames⟩ ]
  | quantileBands =>
    ⟨config.xField, categoryNames⟩ ::
      (QuantileBands.names config).map fun name => ⟨some name, []⟩
  | network =>
    let options := config.network
    [ ⟨options.sourceField, sourceNames⟩, ⟨options.targetField, targetNames⟩,
      ⟨options.sourceNameField, ["source_name", "sourceName", "from_name"]⟩,
      ⟨options.targetNameField, ["target_name", "targetName", "to_name"]⟩,
      ⟨options.sourceGroupField, ["source_group", "sourceGroup", "source_category"]⟩,
      ⟨options.targetGroupField, ["target_group", "targetGroup", "target_category"]⟩,
      ⟨options.weightField.or config.valueField,
        ["weight", "value", "count", "total", "amount", "volume"]⟩,
      ⟨none, valueNames⟩, ⟨options.edgeStyleField, []⟩, ⟨options.dateField, []⟩,
      ⟨options.amountField, []⟩, ⟨options.countField, []⟩, ⟨options.tokenField, []⟩ ]

namespace Bystander

variable {config : Config} {extra : Record} (before after : List Record)

/-! ## Tables -/

section Tables

variable {α : Type} [Quantity α]

/-- A record without a category contributes nothing to a pivot. -/
theorem contribution?_eq_none {fields : PivotFields}
    (absent : extra.cell? fields.category = none) :
    fields.contribution? (α := α) extra = none := by
  rw [PivotFields.contribution?, absent]
  rfl

theorem build_insert {fields : PivotFields} (absent : extra.cell? fields.category = none)
    (aggregation : Aggregation) :
    (TimedPivot.build (before ++ extra :: after) fields aggregation : TimedPivot α) =
      TimedPivot.build (before ++ after) fields aggregation := by
  have same : (Pivot.build (before ++ extra :: after) fields aggregation : Pivot α) =
      Pivot.build (before ++ after) fields aggregation := by
    rw [Pivot.build, filterMap_insert before after (contribution?_eq_none absent)]
    rfl
  rw [TimedPivot.build, same]
  rfl

/-- A record without a category does not change the summaries. -/
theorem summaries_insert {category : String} (absent : extra.cell? category = none)
    (fields : List String) :
    (Summaries.ofRows category fields (before ++ extra :: after) : Summaries α) =
      Summaries.ofRows category fields (before ++ after) := by
  refine foldl_insert before after (fun state => ?_) _
  rw [Summaries.add]
  cases FiveNumbers.ofRow? (α := α) fields extra with
  | none => rfl
  | some numbers => simp only [absent, Option.bind_none]

theorem flow?_eq_none {fields : Sankey.Fields} (absent : extra.label? fields.source = none) :
    Sankey.flow? (α := α) fields extra = none := by
  rw [Sankey.flow?, absent]
  rfl

theorem leaf?_eq_none {separator pathField valueField : String}
    (absent : extra.label? pathField = none) :
    Sunburst.leaf? (α := α) separator pathField valueField extra = none := by
  rw [Sunburst.leaf?, absent]
  rfl

theorem mention?_eq_none {minLength : Nat} {wordField : String} {valueField : Option String}
    (absent : extra.label? wordField = none) :
    WordCloud.mention? (α := α) minLength wordField valueField extra = none := by
  rw [WordCloud.mention?, absent]
  rfl

theorem transfer?_eq_none {fields : Network.Fields}
    (absent : extra.label? fields.source = none) :
    Network.transfer? (α := α) fields extra = none := by
  rw [Network.transfer?, absent]
  rfl

end Tables

/-! ## Charts with axes -/

section Axes

variable {kind : ChartKind}

/-- No column of a bystander is taken for the values. -/
theorem numericField?_eq_none {wanted : List Candidates} (bystander : Bystander wanted extra)
    (category : String) (series : Option String) :
    AxisFields.numericField? category series extra = none := by
  rw [AxisFields.numericField?, Option.map_eq_none_iff, List.find?_eq_none]
  rintro ⟨field, cell⟩ member
  simp [bystander.unnumbered _ member]

theorem axisFields_insert (bystander : Bystander (ChartKind.bar.wanted config) extra) :
    AxisFields.resolve (before ++ extra :: after) config =
      AxisFields.resolve (before ++ after) config := by
  have same := bystander.findField_insert before after
  simp only [ChartKind.wanted, List.forall_mem_cons] at same
  obtain ⟨category, series, value, -⟩ := same
  have fallback (category : String) (series : Option String) :=
    findSome?_insert before after (bystander.numericField?_eq_none category series)
  simp only [AxisFields.resolve, category, series, value, fallback]

theorem axisTable_insert (bystander : Bystander (ChartKind.bar.wanted config) extra) :
    (AxisTable.ofRows (before ++ extra :: after) config : Option (AxisTable Float)) =
      AxisTable.ofRows (before ++ after) config := by
  rw [AxisTable.ofRows, AxisTable.ofRows, axisFields_insert before after bystander]
  cases resolved : AxisFields.resolve (before ++ after) config with
  | none => rfl
  | some fields =>
      have found : findField (before ++ after) config.xField categoryNames =
          some fields.category := by
        simp only [AxisFields.resolve, Option.bind_eq_bind, Option.bind_eq_some_iff] at resolved
        obtain ⟨category, found, value, -, made⟩ := resolved
        cases made
        exact found
      have absent : extra.cell? fields.pivotFields.category = none :=
        bystander.cell?_eq_none (by simp [ChartKind.wanted]) found
      simp only [Option.bind_eq_bind, Option.bind_some, build_insert before after absent]

end Axes

/-! ## Charts with their own readers -/

theorem pie_insert (bystander : Bystander (ChartKind.pie.wanted config) extra) :
    (Pie.ofRows (before ++ extra :: after) config : Pie.Data Float) =
      Pie.ofRows (before ++ after) config := by
  have fields : Pie.fields? (before ++ extra :: after) config =
      Pie.fields? (before ++ after) config := by
    have same := bystander.findField_insert before after
    simp only [ChartKind.wanted, List.forall_mem_cons] at same
    simp only [Pie.fields?, same.1, same.2.1]
  rw [Pie.ofRows, Pie.ofRows, fields]
  cases resolved : Pie.fields? (before ++ after) config with
  | none => rfl
  | some found =>
      obtain ⟨nameField, valueField⟩ := found
      simp only [Pie.fields?, Option.bind_eq_bind, Option.bind_eq_some_iff] at resolved
      obtain ⟨_, found, _, -, made⟩ := resolved
      cases made
      have absent := bystander.label?_eq_none (by simp [ChartKind.wanted]) found
      have sums : (Pie.sums nameField valueField (before ++ extra :: after) :
          List (Pie.Slice Float)) = Pie.sums nameField valueField (before ++ after) := by
        refine congrArg (List.map _) (foldl_insert before after (fun accounts => ?_) _)
        simp only [absent]
      simp only [sums]

theorem boxplot_insert (bystander : Bystander (ChartKind.boxplot.wanted config) extra) :
    (Boxplot.ofRows (before ++ extra :: after) config : Boxplot.Data Float) =
      Boxplot.ofRows (before ++ after) config := by
  have fields : Boxplot.fields? (before ++ extra :: after) config =
      Boxplot.fields? (before ++ after) config := by
    have same := bystander.findField_insert before after
    simp only [ChartKind.wanted, List.forall_mem_cons] at same
    obtain ⟨min, q1, median, q3, max, category, -⟩ := same
    simp only [Boxplot.fields?, min, q1, median, q3, max, category]
  rw [Boxplot.ofRows, Boxplot.ofRows, fields]
  cases resolved : Boxplot.fields? (before ++ after) config with
  | none => rfl
  | some pair =>
      obtain ⟨category, numbers⟩ := pair
      simp only [Boxplot.fields?, Option.bind_eq_bind, Option.bind_eq_some_iff] at resolved
      obtain ⟨_, -, _, -, _, -, _, -, _, -, _, found, made⟩ := resolved
      cases made
      have absent := bystander.cell?_eq_none (by simp [ChartKind.wanted]) found
      simp only [summaries_insert before after absent]

theorem quantileBands_insert
    (bystander : Bystander (ChartKind.quantileBands.wanted config) extra) :
    (QuantileBands.ofRows (before ++ extra :: after) config : QuantileBands.Data Float) =
      QuantileBands.ofRows (before ++ after) config := by
  have fields : QuantileBands.fields? (before ++ extra :: after) config =
      QuantileBands.fields? (before ++ after) config := by
    have same := bystander.findField_insert before after
    simp only [ChartKind.wanted, List.forall_mem_cons, List.forall_mem_map] at same
    obtain ⟨category, quantiles⟩ := same
    simp only [QuantileBands.fields?, category]
    rw [mapM_congr quantiles]
  rw [QuantileBands.ofRows, QuantileBands.ofRows, fields]
  cases resolved : QuantileBands.fields? (before ++ after) config with
  | none => rfl
  | some pair =>
      obtain ⟨category, quantiles⟩ := pair
      simp only [QuantileBands.fields?, Option.bind_eq_bind, Option.bind_eq_some_iff] at resolved
      obtain ⟨_, -, _, found, made⟩ := resolved
      cases made
      have absent := bystander.cell?_eq_none (by simp [ChartKind.wanted]) found
      simp only [summaries_insert before after absent]

theorem heatmap_insert (bystander : Bystander (ChartKind.heatmap.wanted config) extra) :
    (Heatmap.ofRows (before ++ extra :: after) config : Option (Heatmap.Data Float)) =
      Heatmap.ofRows (before ++ after) config := by
  have fields : Heatmap.fields? (before ++ extra :: after) config =
      Heatmap.fields? (before ++ after) config := by
    have same := bystander.findField_insert before after
    simp only [ChartKind.wanted, List.forall_mem_cons] at same
    obtain ⟨column, row, value, -⟩ := same
    simp only [Heatmap.fields?, column, row, value]
  rw [Heatmap.ofRows, Heatmap.ofRows, fields]
  cases resolved : Heatmap.fields? (before ++ after) config with
  | none => rfl
  | some found =>
      have absent : extra.cell? found.category = none := by
        simp only [Heatmap.fields?, Option.bind_eq_bind, Option.bind_eq_some_iff] at resolved
        obtain ⟨_, named, _, -, _, -, made⟩ := resolved
        cases made
        exact bystander.cell?_eq_none (by simp [ChartKind.wanted]) named
      simp only [Option.bind_eq_bind, Option.bind_some, build_insert before after absent]

theorem sankey_insert (bystander : Bystander (ChartKind.sankey.wanted config) extra) :
    (Sankey.ofRows (before ++ extra :: after) config : Sankey.Data Float) =
      Sankey.ofRows (before ++ after) config := by
  have fields : Sankey.fields? (before ++ extra :: after) config =
      Sankey.fields? (before ++ after) config := by
    have same := bystander.findField_insert before after
    simp only [ChartKind.wanted, List.forall_mem_cons] at same
    obtain ⟨source, target, value, -⟩ := same
    simp only [Sankey.fields?, source, target, value]
  rw [Sankey.ofRows, Sankey.ofRows, Sankey.draft?, Sankey.draft?, fields]
  cases resolved : Sankey.fields? (before ++ after) config with
  | none => rfl
  | some found =>
      have absent : extra.label? found.source = none := by
        simp only [Sankey.fields?, Option.bind_eq_bind, Option.bind_eq_some_iff] at resolved
        obtain ⟨_, named, _, -, made⟩ := resolved
        cases made
        exact bystander.label?_eq_none (by simp [ChartKind.wanted]) named
      simp only [Option.map_some, filterMap_insert before after (flow?_eq_none absent)]

theorem sunburst_insert (bystander : Bystander (ChartKind.sunburst.wanted config) extra) :
    (Sunburst.ofRows (before ++ extra :: after) config : Sunburst.Data Float) =
      Sunburst.ofRows (before ++ after) config := by
  have fields : Sunburst.fields? (before ++ extra :: after) config =
      Sunburst.fields? (before ++ after) config := by
    have same := bystander.findField_insert before after
    simp only [ChartKind.wanted, List.forall_mem_cons] at same
    simp only [Sunburst.fields?, same.1, same.2.1]
  rw [Sunburst.ofRows, Sunburst.ofRows, fields]
  cases resolved : Sunburst.fields? (before ++ after) config with
  | none => rfl
  | some found =>
      have absent : extra.label? found.1 = none := by
        simp only [Sunburst.fields?, Option.bind_eq_bind, Option.bind_eq_some_iff] at resolved
        obtain ⟨_, named, _, -, made⟩ := resolved
        cases made
        exact bystander.label?_eq_none (by simp [ChartKind.wanted]) named
      simp only [filterMap_insert before after (leaf?_eq_none absent)]

theorem wordCloud_insert (bystander : Bystander (ChartKind.wordCloud.wanted config) extra) :
    (WordCloud.ofRows (before ++ extra :: after) config : WordCloud.Data Float) =
      WordCloud.ofRows (before ++ after) config := by
  have fields : WordCloud.fields? (before ++ extra :: after) config =
      WordCloud.fields? (before ++ after) config := by
    have same := bystander.findField_insert before after
    simp only [ChartKind.wanted, List.forall_mem_cons] at same
    simp only [WordCloud.fields?, same.1, same.2.1]
  rw [WordCloud.ofRows, WordCloud.ofRows, fields]
  cases resolved : WordCloud.fields? (before ++ after) config with
  | none => rfl
  | some found =>
      have absent : extra.label? found.1 = none := by
        simp only [WordCloud.fields?, Option.bind_eq_bind, Option.bind_eq_some_iff] at resolved
        obtain ⟨_, named, made⟩ := resolved
        cases made
        exact bystander.label?_eq_none (by simp [ChartKind.wanted]) named
      simp only [filterMap_insert before after (mention?_eq_none absent)]

theorem network_insert (bystander : Bystander (ChartKind.network.wanted config) extra) :
    (Network.Graph.ofRows (before ++ extra :: after) config : Network.Graph Float) =
      Network.Graph.ofRows (before ++ after) config := by
  have fields : Network.Fields.resolve (before ++ extra :: after) config =
      Network.Fields.resolve (before ++ after) config := by
    have same := bystander.findField_insert before after
    simp only [ChartKind.wanted, List.forall_mem_cons] at same
    obtain ⟨source, target, sourceName, targetName, sourceGroup, targetGroup, weight, value, style,
      date, amount, count, token, -⟩ := same
    simp only [Network.Fields.resolve, source, target, sourceName, targetName, sourceGroup,
      targetGroup, weight, value, style, date, amount, count, token]
  rw [Network.Graph.ofRows, Network.Graph.ofRows, fields]
  cases resolved : Network.Fields.resolve (before ++ after) config with
  | none => rfl
  | some found =>
      have absent : extra.label? found.source = none := by
        simp only [Network.Fields.resolve, Option.bind_eq_bind, Option.bind_eq_some_iff] at resolved
        obtain ⟨_, named, _, -, made⟩ := resolved
        cases made
        exact bystander.label?_eq_none (by simp [ChartKind.wanted]) named
      simp only [filterMap_insert before after (transfer?_eq_none absent)]

/-! ## Compiled charts -/

theorem chart?_insert {kind : ChartKind} (bystander : Bystander (kind.wanted config) extra)
    (dark : Bool) :
    kind.chart? (before ++ extra :: after) config dark =
      kind.chart? (before ++ after) config dark := by
  cases kind with
  | bar | line | area | radar =>
      simp only [ChartKind.chart?, axisTable_insert before after bystander]
  | pie => simp only [ChartKind.chart?, pie_insert before after bystander]
  | boxplot => simp only [ChartKind.chart?, boxplot_insert before after bystander]
  | heatmap => simp only [ChartKind.chart?, heatmap_insert before after bystander]
  | sankey => simp only [ChartKind.chart?, sankey_insert before after bystander]
  | sunburst => simp only [ChartKind.chart?, sunburst_insert before after bystander]
  | wordCloud => simp only [ChartKind.chart?, wordCloud_insert before after bystander]
  | quantileBands => simp only [ChartKind.chart?, quantileBands_insert before after bystander]
  | network => simp only [ChartKind.chart?, network_insert before after bystander]

end Bystander

/-- Where a chart can be tried, it can be tried with one more record anywhere. -/
theorem records_insert {before after : List Json} (extra : Record)
    (accepted : acceptsRows (.array (before ++ after)) = true) :
    records (.array (before ++ after)) = .ok (recordsAmong before ++ recordsAmong after) ∧
      records (.array (before ++ .object extra :: after)) =
        .ok (recordsAmong before ++ extra :: recordsAmong after) := by
  have among : recordsAmong (before ++ after) = recordsAmong before ++ recordsAmong after :=
    List.filterMap_append
  have amongMore : recordsAmong (before ++ .object extra :: after) =
      recordsAmong before ++ extra :: recordsAmong after := by
    have kept : Json.members? (.object extra) = some extra := rfl
    rw [recordsAmong, List.filterMap_append, List.filterMap_cons_some kept]
    rfl
  rw [← among, ← amongMore]
  cases before with
  | nil =>
      cases after with
      | nil => cases accepted
      | cons first rest =>
          refine ⟨?_, rfl⟩
          cases first with
          | object members => rfl
          | _ => cases accepted
  | cons first rest =>
      cases first with
      | object members => exact ⟨rfl, rfl⟩
      | _ => cases accepted

/-- **A record without any of the fields that a chart looks for and without a number leaves the
compiled chart as it is, wherever it stands among the rows.** -/
theorem compile_insert_bystander {kind : ChartKind} {config : Config} {before after : List Json}
    {extra : Record} (accepted : acceptsRows (.array (before ++ after)) = true)
    (bystander : Bystander (kind.wanted config) extra) (dark : Bool) :
    kind.compile (.array (before ++ .object extra :: after)) config dark =
      kind.compile (.array (before ++ after)) config dark := by
  obtain ⟨without, inserted⟩ := records_insert extra accepted
  rw [ChartKind.compile, ChartKind.compile, without, inserted]
  simp only [bystander.chart?_insert]

/-- A note that stands before the first row of a bar chart. -/
theorem compile_insert_bystander_of_note :
    acceptsRows (.array [.record [("day", "Monday"), ("sales", 3)]]) = true ∧
      Bystander (ChartKind.bar.wanted {}) [("note", "closed")] ∧
        ChartKind.bar.compile
            (.array [.object [("note", "closed")], .record [("day", "Monday"), ("sales", 3)]])
            {} true =
          ChartKind.bar.compile (.array [.record [("day", "Monday"), ("sales", 3)]]) {} true := by
  have accepted : acceptsRows (.array ([] ++ [.record [("day", "Monday"), ("sales", 3)]])) = true :=
    rfl
  have bystander : Bystander (ChartKind.bar.wanted {}) [("note", "closed")] := by
    constructor
    · decide
    · rintro entry (_ | ⟨_, ⟨⟩⟩)
      rfl
  exact ⟨accepted, bystander, compile_insert_bystander accepted bystander true⟩

end ChartCompiler
