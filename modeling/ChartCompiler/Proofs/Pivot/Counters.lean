import ChartCompiler.Proofs.Pivot.Table

/-!
# Counters that run full

Grouping counts the rows of each cell with 32 bits.  It stops exactly when `2 ^ 32` rows carry the
same series and the same category, and otherwise gives the dense table of its rows
(`Pivot.tabulates_or_stops`).

A row that is added changes one tally.  Its counters are the number of the rows at its series and
category, and the number of those with a value, which is not greater; so they have room as long as
these rows are fewer than the limit (`isCounted_tallyAt`), and rows that have been counted stay
counted when more of them come (`foldlM_add?_eq_some_iff`).
-/

set_option autoImplicit false

namespace ChartCompiler

variable {α : Type} [Quantity α]

/-- The limit is what 32 bits can tell apart. -/
theorem Tally.limit_eq : limit = 2 ^ 32 := rfl

namespace PivotDraft

variable {entries : List (PivotEntry α)} {draft : PivotDraft α}

/-- The counters of a tally have room for all its rows if their number is below the limit. -/
theorem isCounted_tallyAt {series category : String} :
    (tallyAt entries series category).isCounted = true ↔
      (valuesAt entries series category).length < 2 ^ 32 := by
  rw [tallyAt, Tally.foldl_push, Tally.isCounted, Bool.and_eq_true, decide_eq_true_iff,
    Tally.limit_eq]
  refine and_iff_left_of_imp fun rows => ?_
  have fewer := List.length_filterMap_le id (valuesAt entries series category)
  cases present : (valuesAt entries series category).filterMap id with
  | nil => rfl
  | cons first rest =>
      rw [present, List.length_cons] at fewer
      exact decide_eq_true (fewer.trans_lt rows)

/-- Adding a value to a cell stops only at the counters of this cell. -/
theorem push?_eq {series category : Nat} {cells : List (Tally α)} {tally : Tally α}
    (row : draft.tallies[series]? = some cells) (column : cells[category]? = some tally)
    (value : Option α) :
    draft.push? series category value =
      if (tally.push value).isCounted then some (draft.push series category value) else none := by
  have same : draft.tallies.set series (cells.set category (tally.push value)) =
      draft.tallies.modify series fun cells => cells.modify category fun tally =>
        tally.push value := by
    simp [List.modify_eq_set_getElem?, row, column]
  rw [push?, row, Option.bind_eq_bind, Option.bind_some, column, Option.bind_eq_bind,
    Option.bind_some, Tally.push?]
  split
  · exact congrArg (fun tallies => some { draft with tallies }) same
  · rfl

/-- In a table the cell of a series and a category is the one with their tally. -/
theorem push?_table {categories series : List String} {cell : String → Json}
    {tally : String → String → Tally α} {name category : String} (member : name ∈ series)
    (member' : category ∈ categories) (value : Option α) :
    let draft := table categories cell series tally
    draft.push? (series.idxOf name) (categories.idxOf category) value =
      if ((tally name category).push value).isCounted then
        some (draft.push (series.idxOf name) (categories.idxOf category) value)
      else none := by
  have row : (series.map fun name => categories.map (tally name))[series.idxOf name]? =
      some (categories.map (tally name)) := by
    rw [List.getElem?_map, List.getElem?_idxOf member, Option.map_some]
  have column : (categories.map (tally name))[categories.idxOf category]? =
      some (tally name category) := by
    rw [List.getElem?_map, List.getElem?_idxOf member', Option.map_some]
  exact push?_eq row column value

/-- After some rows another one stops only at the counters of its own cell. -/
theorem add?_foldl_add (entries : List (PivotEntry α)) (entry : PivotEntry α) :
    (entries.foldl add empty).add? entry =
      if (tallyAt (entries ++ [entry]) entry.series entry.category).isCounted then
        some ((entries ++ [entry]).foldl add empty)
      else none := by
  have series : entry.series ∈ distinct ((entries ++ [entry]).map (·.series)) := by simp
  have category : entry.category ∈ distinct ((entries ++ [entry]).map (·.category)) := by simp
  have pushed : tallyAt (entries ++ [entry]) entry.series entry.category =
      (tallyAt entries entry.series entry.category).push entry.value := by
    rw [tallyAt_append_singleton]
    exact if_pos ⟨rfl, rfl⟩
  rw [List.foldl_append, List.foldl_cons, List.foldl_nil, add?, add, foldl_add_empty,
    withCategory_withSeries_tallied, names_table, pushed]
  exact push?_table series category entry.value

omit [Quantity α] in
/-- The rows at a cell are not too many, unless they were before or the last one is. -/
theorem forall_length_valuesAt_append_singleton {limit : Nat} (entry : PivotEntry α) :
    (∀ series category, (valuesAt (entries ++ [entry]) series category).length < limit) ↔
      (∀ series category, (valuesAt entries series category).length < limit) ∧
        (valuesAt (entries ++ [entry]) entry.series entry.category).length < limit := by
  constructor
  · intro few
    refine ⟨fun series category => ?_, few _ _⟩
    have more := few series category
    rw [valuesAt_append_singleton] at more
    split at more
    · rw [List.length_append] at more
      omega
    · exact more
  · rintro ⟨few, last⟩ series category
    by_cases here : series = entry.series ∧ category = entry.category
    · rw [here.1, here.2]
      exact last
    · rw [valuesAt_append_singleton, if_neg here]
      exact few series category

/-- **Rows are read to the end exactly when no cell has more of them than can be counted.** -/
theorem foldlM_add?_eq_some_iff :
    entries.foldlM add? empty = some draft ↔
      (∀ series category, (valuesAt entries series category).length < 2 ^ 32) ∧
        entries.foldl add empty = draft := by
  induction entries using List.reverseRecOn generalizing draft with
  | nil => simp [valuesAt]
  | append_singleton entries entry ih =>
      have last (draft : PivotDraft α) : [entry].foldlM add? draft = draft.add? entry :=
        bind_pure _
      rw [List.foldlM_append, Option.bind_eq_bind, Option.bind_eq_some_iff,
        forall_length_valuesAt_append_singleton, ← isCounted_tallyAt]
      constructor
      · rintro ⟨before, read, added⟩
        obtain ⟨few, rfl⟩ := ih.mp read
        rw [last, add?_foldl_add] at added
        split at added
        · next counted => exact ⟨⟨few, counted⟩, Option.some.inj added⟩
        · cases added
      · rintro ⟨⟨few, counted⟩, rfl⟩
        exact ⟨_, ih.mpr ⟨few, rfl⟩, by rw [last, add?_foldl_add, if_pos counted]⟩

end PivotDraft

namespace Pivot

variable {records : List Record} {fields : PivotFields} {aggregation : Aggregation}

/-- Grouping gives the plain table as long as every cell can count its rows. -/
theorem build?_eq_some (few : ∀ series category,
      (valuesAt (α := α) (records.filterMap fields.contribution?) series category).length <
        2 ^ 32) :
    build? records fields aggregation = some (build records fields aggregation : Pivot α) := by
  rw [build?, PivotDraft.foldlM_add?_eq_some_iff.mpr ⟨few, rfl⟩]
  rfl

/-- Grouping stops when the rows of a cell are too many to count. -/
theorem build?_eq_none {series category : String}
    (many : 2 ^ 32 ≤
      (valuesAt (α := α) (records.filterMap fields.contribution?) series category).length) :
    (build? records fields aggregation : Option (Pivot α)) = none := by
  have stopped : (records.filterMap (fields.contribution? (α := α))).foldlM PivotDraft.add?
      PivotDraft.empty = none := by
    refine Option.eq_none_iff_forall_ne_some.mpr fun draft read => ?_
    exact absurd ((PivotDraft.foldlM_add?_eq_some_iff.mp read).1 series category) many.not_gt
  rw [build?, stopped]
  rfl

/-- **A pivot is the dense table of the rows that have a category, and a series where series are
told apart, unless `2 ^ 32` of them carry the same series and the same category: then there is
none.** -/
theorem tabulates_or_stops (records : List Record) (fields : PivotFields)
    (aggregation : Aggregation) :
    ∃ entries : List (PivotEntry α),
      List.Forall₂ fields.Reads (records.filter fields.accepts) entries ∧
        ((∀ series category, (valuesAt entries series category).length < 2 ^ 32) →
          build? records fields aggregation = some (build records fields aggregation : Pivot α) ∧
            (build records fields aggregation).Tabulates aggregation entries) ∧
        ∀ series category, 2 ^ 32 ≤ (valuesAt entries series category).length →
          (build? records fields aggregation : Option (Pivot α)) = none := by
  refine ⟨_, fields.reads_filterMap records, fun few => ?_, fun _ _ many => build?_eq_none many⟩
  exact ⟨build?_eq_some few, tabulates_build records fields aggregation⟩

/-- Rows that are all the same fall into one cell. -/
theorem build?_replicate {row : Record} {entry : PivotEntry α} {count : Nat}
    (given : fields.contribution? row = some entry) (many : 2 ^ 32 ≤ count) :
    (build? (List.replicate count row) fields aggregation : Option (Pivot α)) = none := by
  have same : valuesAt ((List.replicate count row).filterMap fields.contribution?) entry.series
      entry.category = List.replicate count entry.value := by
    rw [List.filterMap_replicate_of_some given, valuesAt, List.filter_replicate_of_pos (by simp),
      List.map_replicate]
  have length := congrArg List.length same
  rw [List.length_replicate] at length
  exact build?_eq_none (many.trans length.ge)

/-- `2 ^ 32` equal rows are one too many for the counter of their cell, and the sum of a negative
zero alone is a positive zero, because the sum starts from it. -/
theorem not_tabulates :
    (build? (List.replicate (2 ^ 32) [("name", .string "a"), ("value", 1)])
      ⟨"name", "value", none⟩ .count : Option (Pivot Float)) = none ∧
    ((build? [[("name", .string "a"), ("value", .float (-0.0))]]
      ⟨"name", "value", none⟩ .sum : Option (Pivot Float)).map (·.cells) = some [[some 0.0]] ∧
      Aggregation.foldFirst (· + ·) [(-0.0 : Float)] = some (-0.0) ∧ (0.0 : Float) ≠ -0.0) := by
  refine ⟨build?_replicate rfl le_rfl, rfl, rfl, ?_⟩
  decide +kernel

end Pivot

end ChartCompiler
