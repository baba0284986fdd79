import ChartCompiler.Compile
import ChartCompiler.Proofs.Axis.Alignment
import ChartCompiler.Proofs.Axis.Summaries
import ChartCompiler.Proofs.Chart.Heatmap

/-!
# Compiled charts are aligned

A chart that shows anything has been drawn from a table or from summaries, and its arrays are about
the categories of these, position by position.
-/

set_option autoImplicit false

namespace ChartCompiler

namespace ChartKind

/-- The arrays of an option that a kind of chart makes from records are aligned. -/
def Aligned (kind : ChartKind) (rows : List Record) (config : Config) (option : Json) : Prop :=
  match kind with
  | bar =>
    ∃ fields categories colors, AxisFields.resolve rows config = some fields ∧
      ChartCompiler.Aligned option (if config.horizontal then "yAxis" else "xAxis") config
        (rows.filterMap fields.pivotFields.contribution?) categories colors
  | line | area =>
    ∃ fields categories colors, AxisFields.resolve rows config = some fields ∧
      ChartCompiler.Aligned option "xAxis" config
        (rows.filterMap fields.pivotFields.contribution?) categories colors
  | radar =>
    ∃ fields categories, AxisFields.resolve rows config = some fields ∧
      RadarAligned option config (rows.filterMap fields.pivotFields.contribution?) categories
  | heatmap =>
    ∃ fields categories, Heatmap.fields? rows config = some fields ∧
      Heatmap.Aligned option config (rows.filterMap fields.contribution?) categories
  | boxplot =>
    ∃ category fields boxes time writer color,
      Boxplot.fields? rows config = some (category, fields) ∧
        Box.ReadFrom category fields rows boxes ∧
          BoxesAligned option boxes time (Boxplot.tooltip writer color)
            [fun numbers => .array (numbers.toList.map Json.ofFloat)]
  | quantileBands =>
    ∃ category fields boxes time writer color,
      QuantileBands.fields? rows config = some (category, fields) ∧
        Box.ReadFrom category fields rows boxes ∧
          BoxesAligned option boxes time
            (QuantileBands.tooltip writer color (QuantileBands.names config)) QuantileBands.points
  | _ => True

variable {rows : List Record} {config : Config} {dark : Bool} {chart : CompiledChart}

theorem aligned_boxplot (found : boxplot.chart? rows config dark = some chart) :
    boxplot.Aligned rows config chart.option := by
  obtain ⟨option, made, rfl⟩ := Option.map_eq_some_iff.mp found
  cases resolved : Boxplot.fields? rows config with
  | none => simp [Boxplot.ofRows, resolved, Boxplot.option?] at made
  | some pair =>
      obtain ⟨category, fields⟩ := pair
      obtain ⟨boxes, time, read, labels, titles, numbers⟩ :=
        Summaries.display_eq (Summaries.valid_ofRows (α := Float) category fields rows)
      simp only [Boxplot.ofRows, resolved] at made
      obtain ⟨writer, color, aligned⟩ := Boxplot.aligned_option made labels titles numbers
      exact ⟨category, fields, boxes, time, writer, color, resolved, read, aligned⟩

theorem aligned_quantileBands (found : quantileBands.chart? rows config dark = some chart) :
    quantileBands.Aligned rows config chart.option := by
  obtain ⟨option, made, rfl⟩ := Option.map_eq_some_iff.mp found
  cases resolved : QuantileBands.fields? rows config with
  | none => simp [QuantileBands.ofRows, resolved, QuantileBands.option?] at made
  | some pair =>
      obtain ⟨category, fields⟩ := pair
      obtain ⟨boxes, time, read, labels, titles, numbers⟩ :=
        Summaries.display_eq (Summaries.valid_ofRows (α := Float) category fields rows)
      simp only [QuantileBands.ofRows, resolved] at made
      obtain ⟨writer, color, aligned⟩ := QuantileBands.aligned_option made labels titles numbers
      exact ⟨category, fields, boxes, time, writer, color, resolved, read, aligned⟩

/-- A chart that is drawn is aligned. -/
theorem aligned_chart? {kind : ChartKind} (found : kind.chart? rows config dark = some chart) :
    kind.Aligned rows config chart.option := by
  cases kind with
  | bar =>
      obtain ⟨data, table, rfl⟩ := Option.map_eq_some_iff.mp found
      obtain ⟨fields, resolved, rfl⟩ := AxisTable.ofRows_eq_some table
      obtain ⟨colors, aligned⟩ := Bar.aligned_option config _ fields dark
      exact ⟨fields, _, colors, resolved, aligned⟩
  | line | area =>
      obtain ⟨data, table, rfl⟩ := Option.map_eq_some_iff.mp found
      obtain ⟨fields, resolved, rfl⟩ := AxisTable.ofRows_eq_some table
      obtain ⟨colors, aligned⟩ := Line.aligned_option config _ fields _ dark
      exact ⟨fields, _, colors, resolved, aligned⟩
  | radar =>
      obtain ⟨data, table, rfl⟩ := Option.map_eq_some_iff.mp found
      obtain ⟨fields, resolved, rfl⟩ := AxisTable.ofRows_eq_some table
      exact ⟨fields, _, resolved, Radar.aligned_option config _ fields dark⟩
  | heatmap =>
      obtain ⟨data, table, rfl⟩ := Option.map_eq_some_iff.mp found
      obtain ⟨fields, resolved, pivot, columns, titles⟩ := Heatmap.ofRows_eq_some table
      exact ⟨fields, _, resolved, Heatmap.aligned_option pivot columns titles dark⟩
  | boxplot => exact aligned_boxplot found
  | quantileBands => exact aligned_quantileBands found
  | pie | sankey | sunburst | wordCloud | network => trivial

end ChartKind

/-! ## Charts without data -/

/-- The chart without data is recognised as such. -/
theorem CompiledChart.isEmpty_empty (dark : Bool) : (empty dark).isEmpty = true := by
  cases dark <;> decide +kernel

/-- **The arrays of a compiled chart that shows anything are aligned.** -/
theorem compiled_chart_aligned {kind : ChartKind} {rows : Json} {given : List Record}
    {config : Config} {dark : Bool} (accepted : records rows = .ok given)
    (plain : config.overrides = none)
    (shown : (kind.compile rows config dark).isEmpty = false) :
    kind.Aligned given config (kind.compile rows config dark).option := by
  simp only [ChartKind.compile, accepted, plain] at shown ⊢
  cases found : kind.chart? given config dark with
  | none =>
      rw [found] at shown
      cases (CompiledChart.isEmpty_empty dark).symm.trans shown
  | some chart => exact ChartKind.aligned_chart? found

/-- Two days of two teams, where one team is missing on the first of them. -/
def teamRows : Json :=
  .array
    [ .record [("day", "Tuesday"), ("team", "red"), ("value", 3)],
      .record [("day", "Monday"), ("team", "red"), ("value", 1)],
      .record [("day", "Monday"), ("team", "blue"), ("value", 2)] ]

/-- The bars of two teams, on their sides. -/
theorem compiled_chart_aligned_of_teams :
    ∃ given, records teamRows = .ok given ∧
      (ChartKind.bar.compile teamRows { seriesField := some "team", horizontal := true }
        true).isEmpty = false ∧
      ChartKind.bar.Aligned given { seriesField := some "team", horizontal := true }
        (ChartKind.bar.compile teamRows { seriesField := some "team", horizontal := true }
          true).option := by
  have accepted : records teamRows = .ok
      [ [("day", "Tuesday"), ("team", "red"), ("value", 3)],
        [("day", "Monday"), ("team", "red"), ("value", 1)],
        [("day", "Monday"), ("team", "blue"), ("value", 2)] ] := by rfl
  have shown : (ChartKind.bar.compile teamRows { seriesField := some "team", horizontal := true }
      true).isEmpty = false := by decide +kernel
  exact ⟨_, accepted, shown, compiled_chart_aligned accepted rfl shown⟩

end ChartCompiler
