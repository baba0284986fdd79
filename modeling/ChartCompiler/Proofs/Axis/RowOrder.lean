import ChartCompiler.Proofs.Pivot.Chronology
import ChartCompiler.Proofs.Time.Labels
import ChartCompiler.Proofs.Time.Sampling

/-!
# The order of rows

Categories and series are found in the order of the rows, a category keeps the cell of its first
row, and the cadence is judged by the categories that come first.  All the same, a chart over time
shows the same for its rows in every order, when each category has one cell and no two categories
are the same moment: categories are put in order of time, which only depends on the moments
(`Timely.shownCategories_eq_of_perm`), and apart from the last value no aggregation depends on the
order of the rows (`valueAt_eq_of_perm`).

What does depend on the order of the rows is the order of the series.  With more than thirty
categories it is also the cadence, since only the first thirty are looked at.
-/

set_option autoImplicit false

namespace ChartCompiler

/-! ## Rows in another order -/

section Perm

variable {α : Type} {entries entries' : List (PivotEntry α)}

theorem categoriesOf_perm (perm : entries.Perm entries') :
    (categoriesOf entries).Perm (categoriesOf entries') :=
  distinct_perm (perm.map _)

theorem seriesOf_perm (perm : entries.Perm entries') :
    (seriesOf entries).Perm (seriesOf entries') :=
  distinct_perm (perm.map _)

theorem valuesAt_perm (perm : entries.Perm entries') (series category : String) :
    (valuesAt entries series category).Perm (valuesAt entries' series category) :=
  (perm.filter _).map _

end Perm

/-- Without rounding, the value of a cell does not depend on the order of the rows, unless it is
the last one. -/
theorem valueAt_eq_of_perm {aggregation : Aggregation} (other : aggregation ≠ .last)
    {entries entries' : List (PivotEntry ℚ)} (perm : entries.Perm entries')
    (series category : String) :
    valueAt aggregation entries series category = valueAt aggregation entries' series category :=
  Aggregation.ofValues_rat_perm other (valuesAt_perm perm series category)

/-! ## Categories that are moments -/

/-- Rows of one category have one cell, and different categories are different moments. -/
structure Timely {α : Type} (entries : List (PivotEntry α)) : Prop where
  read : ∀ entry ∈ entries, (Instant.ofCell? entry.cell).isSome = true
  cell : ∀ first ∈ entries, ∀ second ∈ entries,
    first.category = second.category → first.cell = second.cell
  moment : ∀ first ∈ entries, ∀ second ∈ entries,
    moment? first.cell = moment? second.cell → first.category = second.category

namespace Timely

variable {α : Type} {entries entries' : List (PivotEntry α)}

theorem of_perm (timely : Timely entries) (perm : entries.Perm entries') : Timely entries' where
  read entry member := timely.read entry (perm.mem_iff.mpr member)
  cell first member second member' :=
    timely.cell first (perm.mem_iff.mpr member) second (perm.mem_iff.mpr member')
  moment first member second member' :=
    timely.moment first (perm.mem_iff.mpr member) second (perm.mem_iff.mpr member')

/-- It does not matter which row of a category comes first. -/
theorem cellOf_category (timely : Timely entries) {entry : PivotEntry α}
    (member : entry ∈ entries) : cellOf entries entry.category = entry.cell := by
  obtain ⟨first, present, found, same⟩ := exists_first (List.mem_map_of_mem member)
  rw [cellOf, firstCell?, found, Option.map_some, Option.getD_some]
  exact timely.cell first present entry member same

theorem cellOf_eq_of_perm (timely : Timely entries) (perm : entries.Perm entries') :
    cellOf entries = cellOf entries' := by
  funext category
  by_cases known : ∃ entry ∈ entries, entry.category = category
  · obtain ⟨entry, member, rfl⟩ := known
    rw [timely.cellOf_category member,
      (timely.of_perm perm).cellOf_category (perm.mem_iff.mp member)]
  · have missing {entries : List (PivotEntry α)}
        (absent : ¬ ∃ entry ∈ entries, entry.category = category) :
        cellOf entries category = .null := by
      have unseen : entries.find? (·.category = category) = none :=
        List.find?_eq_none.mpr fun entry present same =>
          absent ⟨entry, present, of_decide_eq_true same⟩
      rw [cellOf, firstCell?, unseen]
      rfl
    rw [missing known, missing]
    rintro ⟨entry, member, same⟩
    exact known ⟨entry, perm.mem_iff.mpr member, same⟩

theorem isTimeSeries (timely : Timely entries) (nonempty : entries ≠ []) :
    (samplingOf entries).isTimeSeries = true := by
  obtain ⟨entry, member⟩ := List.exists_mem_of_ne_nil entries nonempty
  have known : entry.category ∈ categoriesOf entries :=
    mem_distinct.mpr (List.mem_map_of_mem member)
  rw [samplingOf, Sampling.isTimeSeries_ofCells_iff]
  cases seen : categoriesOf entries with
  | nil =>
      rw [seen] at known
      cases known
  | cons category rest =>
      have first : category ∈ categoriesOf entries := by
        rw [seen]
        exact List.mem_cons_self
      obtain ⟨source, present, rfl⟩ := List.mem_map.mp (mem_distinct.mp first)
      refine ⟨cellOf entries source.category, List.mem_cons_self, ?_⟩
      rw [timely.cellOf_category present]
      exact timely.read source present

theorem shownCategories_eq (timely : Timely entries) (nonempty : entries ≠ []) :
    shownCategories entries = byMoment (cellOf entries) (categoriesOf entries) := by
  rw [shownCategories, if_pos (timely.isTimeSeries nonempty), pick_chronologicalOrder]

/-- **Categories that are moments are shown in one order.** -/
theorem shownCategories_eq_of_perm (timely : Timely entries) (perm : entries.Perm entries') :
    shownCategories entries = shownCategories entries' := by
  by_cases empty : entries = []
  · subst empty
    rw [perm.nil_eq]
  · have nonempty' : entries' ≠ [] := fun empty' => empty (perm.trans (.of_eq empty')).eq_nil
    rw [timely.shownCategories_eq empty, (timely.of_perm perm).shownCategories_eq nonempty',
      ← timely.cellOf_eq_of_perm perm]
    refine byMoment_eq_of_perm (categoriesOf_perm perm) ?_
    intro first member second member' same
    obtain ⟨entry, present, rfl⟩ := List.mem_map.mp (mem_distinct.mp member)
    obtain ⟨entry', present', rfl⟩ := List.mem_map.mp (mem_distinct.mp member')
    rw [timely.cellOf_category present, timely.cellOf_category present'] at same
    exact timely.moment entry present entry' present' same

theorem samplingOf_eq_of_perm (timely : Timely entries) (perm : entries.Perm entries')
    (few : (categoriesOf entries).length ≤ Cadence.sampleCount) :
    samplingOf entries = samplingOf entries' := by
  rw [samplingOf, samplingOf, ← timely.cellOf_eq_of_perm perm]
  have cells := (categoriesOf_perm perm).map (cellOf entries)
  refine Sampling.ofCells_eq_of_perm ?_
  rwa [List.take_of_length_le (by rwa [List.length_map]),
    List.take_of_length_le (by rwa [← cells.length_eq, List.length_map])]

theorem labelOf_eq_of_perm (timely : Timely entries) (perm : entries.Perm entries')
    (few : (categoriesOf entries).length ≤ Cadence.sampleCount) :
    labelOf entries = labelOf entries' := by
  funext place category
  rw [labelOf, labelOf, timely.cellOf_eq_of_perm perm, timely.samplingOf_eq_of_perm perm few]

end Timely

/-! ## Rows at moments -/

namespace PivotFields

/-- The rows that are accepted have one cell for each category, and different categories are
different moments. -/
structure ReadsMoments (fields : PivotFields) (rows : List Record) : Prop where
  /-- Category cells read as instants. -/
  read : ∀ row ∈ rows.filter fields.accepts, ∃ cell, row.cell? fields.category = some cell ∧
    (Instant.ofCell? cell).isSome = true
  /-- Rows of one category have one cell. -/
  cell : ∀ first ∈ rows.filter fields.accepts, ∀ second ∈ rows.filter fields.accepts,
    first.label? fields.category = second.label? fields.category →
      first.cell? fields.category = second.cell? fields.category
  /-- Rows of different categories differ in their milliseconds. -/
  moment : ∀ first ∈ rows.filter fields.accepts, ∀ second ∈ rows.filter fields.accepts,
    first.label? fields.category ≠ second.label? fields.category →
      (first.cell? fields.category).bind moment? ≠ (second.cell? fields.category).bind moment?

variable {α : Type} [Quantity α] {fields : PivotFields} {rows : List Record}

theorem Reads.label? {row : Record} {entry : PivotEntry α} (reads : fields.Reads row entry) :
    row.label? fields.category = some entry.category := by
  rw [Record.label?, reads.cell, Option.bind_some, reads.category]

theorem ReadsMoments.timely (moments : fields.ReadsMoments rows) :
    Timely (rows.filterMap (fields.contribution? (α := α))) where
  read entry member := by
    obtain ⟨row, present, reads⟩ := exists_row member
    obtain ⟨cell, found, read⟩ := moments.read row present
    obtain rfl := Option.some.inj (reads.cell.symm.trans found)
    exact read
  cell first member second member' same := by
    obtain ⟨row, present, reads⟩ := exists_row member
    obtain ⟨row', present', reads'⟩ := exists_row member'
    have cells := moments.cell row present row' present' (by rw [reads.label?, reads'.label?, same])
    rw [reads.cell, reads'.cell] at cells
    exact Option.some.inj cells
  moment first member second member' same := by
    obtain ⟨row, present, reads⟩ := exists_row member
    obtain ⟨row', present', reads'⟩ := exists_row member'
    by_contra differ
    refine moments.moment row present row' present' ?_ ?_
    · rw [reads.label?, reads'.label?]
      exact fun labels => differ (Option.some.inj labels)
    · rw [reads.cell, reads'.cell]
      exact same

end PivotFields

/-! ## Tables that show the same -/

namespace AxisTable

variable {α : Type}

/-- Two tables show the same categories and the same series, though the series may be in another
order. -/
structure Matches (first second : AxisTable α) : Prop where
  fields : first.fields = second.fields
  /-- The categories are the same, in the same order. -/
  categories : first.pivot.categories = second.pivot.categories
  series : first.pivot.series.Perm second.pivot.series
  distinct : first.pivot.series.Nodup
  /-- A series has the same cells in both tables. -/
  cells : ∀ (position position' : Nat) (name : String), first.pivot.series[position]? = some name →
    second.pivot.series[position']? = some name →
      ∃ row, first.pivot.cells[position]? = some row ∧ second.pivot.cells[position']? = some row
  /-- Up to the number of categories that are looked at, both are labelled alike. -/
  time : first.pivot.categories.length ≤ 30 →
    first.time = second.time ∧ first.labels = second.labels ∧ first.titles = second.titles

variable [Quantity α]

/-- A table is made unless there are no rows. -/
theorem ofTimed_shown (fields : AxisFields) (aggregation : Aggregation)
    (entries : List (PivotEntry α)) :
    ofTimed fields (.shown aggregation entries) =
      if shownCategories entries = [] then none
      else some
        { fields
          pivot := .arranged aggregation entries (shownCategories entries)
          time := samplingOf entries
          labels := (shownCategories entries).map (labelOf entries .axis)
          titles := (shownCategories entries).map (labelOf entries .tooltip) } := by
  rw [ofTimed, TimedPivot.labels_shown, TimedPivot.labels_shown]
  exact if_congr List.isEmpty_iff rfl rfl

/-- A table is made exactly when a row is accepted. -/
theorem isSome_ofRows_iff {rows : List Record} {config : Config} :
    (ofRows rows config : Option (AxisTable α)).isSome = true ↔
      ∃ fields, AxisFields.resolve rows config = some fields ∧
        ∃ row ∈ rows, fields.pivotFields.accepts row = true := by
  rw [ofRows]
  cases AxisFields.resolve rows config with
  | none => simp
  | some fields =>
      simp only [Option.bind_eq_bind, Option.bind_some, TimedPivot.build_eq_shown, ofTimed_shown,
        Option.some.injEq, exists_eq_left']
      constructor
      · intro made
        split at made
        · cases made
        · next nonempty =>
          obtain ⟨category, member⟩ := List.exists_mem_of_ne_nil _ nonempty
          obtain ⟨entry, present, -⟩ := (mem_shownCategories _).mp member
          obtain ⟨row, accepted, -⟩ := PivotFields.exists_row present
          exact ⟨row, List.mem_filter.mp accepted⟩
      · rintro ⟨row, member, accepted⟩
        obtain ⟨entry, given, -⟩ := PivotFields.contribution?_of_accepts (α := α) accepted
        have present := List.mem_filterMap.mpr ⟨row, member, given⟩
        have shown := (mem_shownCategories _).mpr ⟨entry, present, rfl⟩
        rw [if_neg (List.ne_nil_of_mem shown), Option.isSome_some]

theorem matches_of_perm {fields : AxisFields} {aggregation : Aggregation}
    {entries entries' : List (PivotEntry ℚ)} (other : aggregation ≠ .last)
    (timely : Timely entries) (perm : entries.Perm entries') :
    Option.Rel Matches (ofTimed fields (.shown aggregation entries))
      (ofTimed fields (.shown aggregation entries')) := by
  have shown := timely.shownCategories_eq_of_perm perm
  rw [ofTimed_shown, ofTimed_shown, ← shown]
  split
  · exact .none
  · refine .some ?_
    have labelled (few : (shownCategories entries).length ≤ 30) :
        (categoriesOf entries).length ≤ Cadence.sampleCount :=
      (shownCategories_perm entries).length_eq ▸ few
    refine ⟨rfl, rfl, seriesOf_perm perm, nodup_distinct _, ?_, ?_⟩
    · intro position position' name here here'
      refine ⟨(shownCategories entries).map (valueAt aggregation entries name), ?_, ?_⟩
      · rw [Pivot.arranged] at here ⊢
        rw [List.getElem?_map, here, Option.map_some]
      · rw [Pivot.arranged] at here' ⊢
        rw [List.getElem?_map, here', Option.map_some]
        refine congrArg some (List.map_congr_left fun category _ => ?_)
        exact (valueAt_eq_of_perm other perm name category).symm
    · intro few
      rw [timely.samplingOf_eq_of_perm perm (labelled few),
        timely.labelOf_eq_of_perm perm (labelled few)]
      exact ⟨rfl, rfl, rfl⟩

/-- **A chart over time does not depend on the order of its rows.**  Rows make a table when one of
them is accepted.  When their categories are different moments, each with one cell, they make the
same table in every order: with the same categories in the same order, the same cells for each
series and, up to thirty categories, the same labels. -/
theorem ofRows_matches_of_perm {rows rows' : List Record} {config : Config}
    (perm : rows.Perm rows') (other : config.aggregation ≠ .last)
    (resolved : AxisFields.resolve rows config = AxisFields.resolve rows' config)
    (moments : ∀ fields, AxisFields.resolve rows config = some fields →
      fields.pivotFields.ReadsMoments rows) :
    ((ofRows rows config : Option (AxisTable ℚ)).isSome = true ↔
        ∃ fields, AxisFields.resolve rows config = some fields ∧
          ∃ row ∈ rows, fields.pivotFields.accepts row = true) ∧
      Option.Rel Matches (ofRows rows config : Option (AxisTable ℚ)) (ofRows rows' config) := by
  refine ⟨isSome_ofRows_iff, ?_⟩
  rw [ofRows, ofRows, ← resolved]
  cases found : AxisFields.resolve rows config with
  | none => exact .none
  | some fields =>
      simp only [Option.bind_eq_bind, Option.bind_some, TimedPivot.build_eq_shown]
      exact matches_of_perm other (moments fields found).timely (perm.filterMap _)

/-- Two days of a month, the later one first. -/
def latestFirst : List Record :=
  [ [("date", .string "2024-01-30"), ("value", .integer 5)],
    [("date", .string "2024-01-01"), ("value", .integer 3)] ]

/-- The fields of the two days. -/
def latestFirstFields : AxisFields :=
  { category := "date", value := "value", series := none }

theorem resolve_latestFirst : AxisFields.resolve latestFirst {} = some latestFirstFields := by
  decide +kernel

theorem resolve_reverse_latestFirst :
    AxisFields.resolve latestFirst.reverse {} = some latestFirstFields := by
  decide +kernel

theorem day_of_mem_latestFirst {row : Record} (member : row ∈ latestFirst) :
    ∃ day ∈ ["2024-01-30", "2024-01-01"], row.label? "date" = some day ∧
      row.cell? "date" = some (.string day) := by
  rcases List.mem_cons.mp member with rfl | later
  · exact ⟨"2024-01-30", List.mem_cons_self, by decide +kernel, rfl⟩
  · obtain rfl := List.mem_singleton.mp later
    exact ⟨"2024-01-01", List.mem_cons_of_mem _ List.mem_cons_self, by decide +kernel, rfl⟩

theorem moment?_of_january : moment? (.string "2024-01-30") = some 1706572800000 ∧
    moment? (.string "2024-01-01") = some 1704067200000 := by
  rw [moment?, moment?, thirtieth_of_january, first_of_january]
  exact ⟨rfl, rfl⟩

theorem readsMoments_latestFirst : latestFirstFields.pivotFields.ReadsMoments latestFirst where
  read row member := by
    obtain ⟨day, listed, -, here⟩ := day_of_mem_latestFirst (List.mem_filter.mp member).1
    refine ⟨.string day, here, ?_⟩
    rcases List.mem_cons.mp listed with rfl | listed
    · rw [thirtieth_of_january, Option.isSome_some]
    · rw [List.mem_singleton.mp listed, first_of_january, Option.isSome_some]
  cell first member second member' same := by
    obtain ⟨day, -, labelled, here⟩ := day_of_mem_latestFirst (List.mem_filter.mp member).1
    obtain ⟨day', -, labelled', here'⟩ := day_of_mem_latestFirst (List.mem_filter.mp member').1
    obtain rfl := Option.some.inj (labelled.symm.trans (same.trans labelled'))
    exact here.trans here'.symm
  moment first member second member' differ := by
    obtain ⟨day, listed, labelled, here⟩ := day_of_mem_latestFirst (List.mem_filter.mp member).1
    obtain ⟨day', listed', labelled', here'⟩ :=
      day_of_mem_latestFirst (List.mem_filter.mp member').1
    obtain ⟨thirtieth, start⟩ := moment?_of_january
    have apart : day ≠ day' := by
      rintro rfl
      exact differ (labelled.trans labelled'.symm)
    show (first.cell? "date").bind moment? ≠ (second.cell? "date").bind moment?
    rw [here, here', Option.bind_some, Option.bind_some]
    simp only [List.mem_cons, List.not_mem_nil, or_false] at listed listed'
    rcases listed with rfl | rfl <;> rcases listed' with rfl | rfl
    · exact absurd rfl apart
    · rw [thirtieth, start]
      decide
    · rw [thirtieth, start]
      decide
    · exact absurd rfl apart

theorem ofRows_matches_of_latestFirst :
    latestFirst.Perm latestFirst.reverse ∧ ({} : Config).aggregation ≠ .last ∧
      AxisFields.resolve latestFirst {} = AxisFields.resolve latestFirst.reverse {} ∧
      (∀ fields, AxisFields.resolve latestFirst {} = some fields →
        fields.pivotFields.ReadsMoments latestFirst) ∧
      (ofRows latestFirst {} : Option (AxisTable ℚ)).isSome = true ∧
      Option.Rel Matches (ofRows latestFirst {} : Option (AxisTable ℚ))
        (ofRows latestFirst.reverse {}) := by
  have perm : latestFirst.Perm latestFirst.reverse := (List.reverse_perm _).symm
  have resolved : AxisFields.resolve latestFirst {} = AxisFields.resolve latestFirst.reverse {} :=
    resolve_latestFirst.trans resolve_reverse_latestFirst.symm
  have moments : ∀ fields, AxisFields.resolve latestFirst {} = some fields →
      fields.pivotFields.ReadsMoments latestFirst := by
    intro fields found
    obtain rfl := Option.some.inj (resolve_latestFirst.symm.trans found)
    exact readsMoments_latestFirst
  obtain ⟨made, same⟩ := ofRows_matches_of_perm perm (by decide) resolved moments
  refine ⟨perm, by decide, resolved, moments, made.mpr ?_, same⟩
  exact ⟨latestFirstFields, resolve_latestFirst, _, List.mem_cons_self, by decide +kernel⟩

end AxisTable

end ChartCompiler
