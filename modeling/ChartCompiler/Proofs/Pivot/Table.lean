import ChartCompiler.Pivot.Basic
import ChartCompiler.Proofs.Ledger
import ChartCompiler.Proofs.Pivot.Tally

/-!
# What a pivot table holds

A pivot table is dense, and each of its cells is the aggregation of the rows that carry the series
and the category of the cell (`tabulates_build`).

While rows are read the table grows in both directions.  A draft is described by its categories,
its series, and a tally for each series and each category (`PivotDraft.table`), also for those that
have not come up yet: their tallies are empty.  Growing the table then changes no tally, and a row
changes the tally of its own series and category alone.
-/

set_option autoImplicit false

namespace ChartCompiler

variable {α : Type}

/-! ## What rows say -/

section Entries

variable (entries : List (PivotEntry α)) (series category : String)

/-- The values of the rows that carry a series and a category, in the order of the rows. -/
def valuesAt : List (Option α) :=
  (entries.filter fun entry => entry.series = series ∧ entry.category = category).map (·.value)

/-- The cell that a category is first read from. -/
def firstCell? : Option Json :=
  (entries.find? (·.category = category)).map (·.cell)

end Entries

section Append

variable {entries : List (PivotEntry α)} {entry : PivotEntry α} {series category : String}

theorem valuesAt_append_singleton :
    valuesAt (entries ++ [entry]) series category =
      if series = entry.series ∧ category = entry.category then
        valuesAt entries series category ++ [entry.value]
      else valuesAt entries series category := by
  by_cases same : series = entry.series ∧ category = entry.category
  · obtain ⟨rfl, rfl⟩ := same
    simp [valuesAt]
  · have other : ¬ (entry.series = series ∧ entry.category = category) :=
      fun found => same ⟨found.1.symm, found.2.symm⟩
    simp [valuesAt, same, other]

theorem valuesAt_eq_nil (absent : ¬ ∃ entry ∈ entries,
    entry.series = series ∧ entry.category = category) : valuesAt entries series category = [] := by
  simpa [valuesAt] using absent

/-- A category that comes up has a first row. -/
theorem exists_first (member : category ∈ entries.map (·.category)) :
    ∃ first ∈ entries, entries.find? (·.category = category) = some first ∧
      first.category = category := by
  obtain ⟨entry, present, rfl⟩ := List.mem_map.mp member
  have any : (entries.find? (·.category = entry.category)).isSome :=
    List.find?_isSome.mpr ⟨entry, present, decide_eq_true rfl⟩
  obtain ⟨first, found⟩ := Option.isSome_iff_exists.mp any
  exact ⟨first, List.mem_of_find?_eq_some found, found, by simpa using List.find?_some found⟩

theorem firstCell?_of_mem (member : category ∈ entries.map (·.category)) :
    firstCell? (entries ++ [entry]) category = firstCell? entries category := by
  obtain ⟨first, -, found, -⟩ := exists_first member
  rw [firstCell?, List.find?_append, found, Option.some_or, firstCell?, found]

theorem firstCell?_of_not_mem (absent : entry.category ∉ entries.map (·.category)) :
    firstCell? (entries ++ [entry]) entry.category = some entry.cell := by
  have missing : entries.find? (·.category = entry.category) = none :=
    List.find?_eq_none.mpr fun other present same =>
      absent (List.mem_map.mpr ⟨other, present, of_decide_eq_true same⟩)
  rw [firstCell?, List.find?_append, missing]
  simp

/-- Labels are read off the cells beside them. -/
theorem exists_firstCell?
    (labelled : ∀ entry ∈ entries, Cell.label entry.cell = some entry.category)
    (member : category ∈ entries.map (·.category)) :
    ∃ cell, firstCell? entries category = some cell ∧ Cell.label cell = some category := by
  obtain ⟨first, present, found, same⟩ := exists_first member
  refine ⟨first.cell, by rw [firstCell?, found, Option.map_some], ?_⟩
  rw [labelled first present, same]

end Append

/-! ## Drafts -/

variable [Quantity α]

namespace PivotDraft

/-- The draft with these categories and series, and these tallies. -/
def table (categories : List String) (cell : String → Json) (series : List String)
    (tally : String → String → Tally α) : PivotDraft α :=
  { categories := categories.map fun category => (category, cell category)
    series
    tallies := series.map fun name => categories.map (tally name) }

section Table

variable {categories series : List String} {cell : String → Json}
  {tally : String → String → Tally α}

omit [Quantity α] in
theorem names_table : (table categories cell series tally).categories.map (·.1) = categories := by
  rw [table, List.map_map]
  exact List.map_id _

omit [Quantity α] in
/-- A category is added with its first cell and without rows. -/
theorem withCategory_table {category : String} {given : Json}
    (first : category ∉ categories → cell category = given)
    (untouched : category ∉ categories → ∀ name, tally name category = Tally.empty) :
    (table categories cell series tally).withCategory category given =
      table (addNew category categories) cell series tally := by
  have present : (table categories cell series tally).categories.any (·.1 = category) =
      decide (category ∈ categories) := by
    refine Bool.eq_iff_iff.mpr ?_
    simp [table]
  rw [withCategory, present]
  by_cases member : category ∈ categories
  · rw [if_pos (decide_eq_true member), addNew_of_mem member]
  · rw [if_neg (by simpa using member), addNew_of_not_mem member]
    simp [table, first member, untouched member, Function.comp_def]

omit [Quantity α] in
/-- A series is added without rows. -/
theorem withSeries_table {name : String}
    (untouched : name ∉ series → ∀ category, tally name category = Tally.empty) :
    (table categories cell series tally).withSeries name =
      table categories cell (addNew name series) tally := by
  rw [withSeries]
  by_cases member : name ∈ series
  · rw [if_pos (by simpa [table] using member), addNew_of_mem member]
  · have empty : List.replicate (categories.map fun category => (category, cell category)).length
        Tally.empty = categories.map (tally name) := by
      rw [List.length_map, ← List.map_const']
      exact (List.map_congr_left fun category _ => untouched member category).symm
    rw [if_neg (by simpa [table] using member), addNew_of_not_mem member]
    show ({ categories := _, series := _, tallies := _ ++ [List.replicate _ _] } : PivotDraft α) = _
    rw [table, empty, table, List.map_append, List.map_singleton]

/-- A value is added to the tally of its series and category alone. -/
theorem push_table (nodup : categories.Nodup) (nodup' : series.Nodup) (name category : String)
    (value : Option α) :
    (table categories cell series tally).push (series.idxOf name) (categories.idxOf category)
        value =
      table categories cell series fun otherName other =>
        if otherName = name ∧ other = category then (tally otherName other).push value
        else tally otherName other := by
  rw [push, table, modify_idxOf_map nodup']
  refine congrArg (PivotDraft.mk _ _) (List.map_congr_left fun otherName _ => ?_)
  by_cases same : otherName = name
  · subst same
    simp only [if_true, true_and]
    exact modify_idxOf_map nodup _ _
  · simp [same]

end Table

omit [Quantity α] in
/-- The cells of categories that have not come up do not matter. -/
theorem table_congr {categories series : List String} {cell cell' : String → Json}
    (tally : String → String → Tally α)
    (same : ∀ category ∈ categories, cell category = cell' category) :
    table categories cell series tally = table categories cell' series tally :=
  congrArg (PivotDraft.mk · series _)
    (List.map_congr_left fun category member => by rw [same category member])

/-- The tally of the rows that carry a series and a category. -/
def tallyAt (entries : List (PivotEntry α)) (series category : String) : Tally α :=
  (valuesAt entries series category).foldl Tally.push Tally.empty

section TallyAt

variable {entries : List (PivotEntry α)} {entry : PivotEntry α}

theorem tallyAt_append_singleton :
    tallyAt (entries ++ [entry]) = fun series category =>
      if series = entry.series ∧ category = entry.category then
        (tallyAt entries series category).push entry.value
      else tallyAt entries series category := by
  funext series category
  rw [tallyAt, valuesAt_append_singleton]
  split
  · rw [List.foldl_append, List.foldl_cons, List.foldl_nil, tallyAt]
  · rw [tallyAt]

theorem tallyAt_new_category {category : String}
    (absent : category ∉ distinct (entries.map (·.category))) (series : String) :
    tallyAt entries series category = Tally.empty := by
  rw [tallyAt, valuesAt_eq_nil, List.foldl_nil]
  rintro ⟨other, present, -, same⟩
  exact absent (mem_distinct.mpr (List.mem_map.mpr ⟨other, present, same⟩))

theorem tallyAt_new_series {series : String}
    (absent : series ∉ distinct (entries.map (·.series))) (category : String) :
    tallyAt entries series category = Tally.empty := by
  rw [tallyAt, valuesAt_eq_nil, List.foldl_nil]
  rintro ⟨other, present, same, -⟩
  exact absent (mem_distinct.mpr (List.mem_map.mpr ⟨other, present, same⟩))

end TallyAt

/-- The table of some rows. -/
def tallied (entries : List (PivotEntry α)) : PivotDraft α :=
  table (distinct (entries.map (·.category)))
    (fun category => (firstCell? entries category).getD .null)
    (distinct (entries.map (·.series))) (tallyAt entries)

/-- A row adds its category and its series, and then its value. -/
theorem withCategory_withSeries_tallied (entries : List (PivotEntry α)) (entry : PivotEntry α) :
    ((tallied entries).withCategory entry.category entry.cell).withSeries entry.series =
      table (distinct ((entries ++ [entry]).map (·.category)))
        (fun category => (firstCell? (entries ++ [entry]) category).getD .null)
        (distinct ((entries ++ [entry]).map (·.series))) (tallyAt entries) := by
  -- The categories that are there have been read from a cell of an earlier row.
  have read : ∀ category ∈ distinct (entries.map (·.category)),
      (firstCell? entries category).getD .null =
        (firstCell? (entries ++ [entry]) category).getD .null := by
    intro category member
    rw [firstCell?_of_mem (mem_distinct.mp member)]
  have first : entry.category ∉ distinct (entries.map (·.category)) →
      (firstCell? (entries ++ [entry]) entry.category).getD .null = entry.cell := by
    intro absent
    rw [firstCell?_of_not_mem (mt mem_distinct.mpr absent), Option.getD_some]
  rw [tallied, table_congr _ read, withCategory_table first tallyAt_new_category,
    withSeries_table tallyAt_new_series, List.map_append, List.map_append, List.map_singleton,
    List.map_singleton, distinct_append_singleton, distinct_append_singleton]

/-- **Reading rows one after the other tallies the values of each series and category.** -/
theorem foldl_add_empty (entries : List (PivotEntry α)) :
    entries.foldl add empty = tallied entries := by
  induction entries using List.reverseRecOn with
  | nil => rfl
  | append_singleton entries entry ih =>
      rw [List.foldl_append, ih, List.foldl_cons, List.foldl_nil, add,
        withCategory_withSeries_tallied, names_table]
      exact (push_table (nodup_distinct _) (nodup_distinct _) _ _ _).trans
        (congrArg (table _ _ _) tallyAt_append_singleton.symm)

end PivotDraft

/-! ## Rows that count -/

namespace PivotFields

/-- Whether a row has a category, and a series where series are told apart. -/
def accepts (fields : PivotFields) (row : Record) : Bool :=
  (row.label? fields.category).isSome && fields.series.all fun field => (row.label? field).isSome

/-- A row is read in the fields of a pivot. -/
structure Reads (fields : PivotFields) (row : Record) (entry : PivotEntry α) : Prop where
  cell : row.cell? fields.category = some entry.cell
  category : Cell.label entry.cell = some entry.category
  /-- The series is the label of the series, where series are told apart. -/
  series : ∀ field, fields.series = some field → row.label? field = some entry.series
  /-- All rows form one series otherwise. -/
  undivided : fields.series = none → entry.series = fields.value
  /-- The value is missing where it does not read as a number. -/
  value : entry.value = (row.number? fields.value).map Quantity.ofFloat

/-- A row that is accepted is read. -/
theorem contribution?_of_accepts {fields : PivotFields} {row : Record}
    (accepted : fields.accepts row = true) :
    ∃ entry : PivotEntry α, fields.contribution? row = some entry ∧ fields.Reads row entry := by
  obtain ⟨labelled, divided⟩ := Bool.and_eq_true_iff.mp accepted
  obtain ⟨category, named⟩ := Option.isSome_iff_exists.mp labelled
  obtain ⟨cell, here, read⟩ := Option.bind_eq_some_iff.mp named
  cases undivided : fields.series with
  | none =>
      refine ⟨⟨category, cell, fields.value, (row.number? fields.value).map Quantity.ofFloat⟩, ?_,
        here, read, by simp [undivided], fun _ => rfl, rfl⟩
      simp [contribution?, seriesLabel?, here, read, undivided]
  | some field =>
      rw [undivided] at divided
      obtain ⟨series, found⟩ := Option.isSome_iff_exists.mp divided
      refine ⟨⟨category, cell, series, (row.number? fields.value).map Quantity.ofFloat⟩, ?_,
        here, read, ?_, by simp [undivided], rfl⟩
      · simp [contribution?, seriesLabel?, here, read, undivided, found]
      · intro other same
        obtain rfl := Option.some.inj (undivided.symm.trans same)
        exact found

/-- A row that is not accepted is left out. -/
theorem contribution?_of_not_accepts {fields : PivotFields} {row : Record}
    (refused : ¬ fields.accepts row = true) :
    (fields.contribution? row : Option (PivotEntry α)) = none := by
  rw [accepts, Record.label?] at refused
  cases here : row.cell? fields.category with
  | none => simp [contribution?, here]
  | some cell =>
      cases read : Cell.label cell with
      | none => simp [contribution?, here, read]
      | some category =>
          cases divided : fields.series with
          | none => simp [here, read, divided] at refused
          | some field =>
              have missing : row.label? field = none := by
                simpa [here, read, divided] using refused
              simp [contribution?, seriesLabel?, here, divided, missing]

theorem accepts_of_contribution? {fields : PivotFields} {row : Record} {entry : PivotEntry α}
    (given : fields.contribution? row = some entry) : fields.accepts row = true := by
  by_contra refused
  rw [contribution?_of_not_accepts refused] at given
  cases given

theorem reads_of_contribution? {fields : PivotFields} {row : Record} {entry : PivotEntry α}
    (given : fields.contribution? row = some entry) : fields.Reads row entry := by
  obtain ⟨other, given', reads⟩ :=
    contribution?_of_accepts (α := α) (accepts_of_contribution? given)
  obtain rfl := Option.some.inj (given.symm.trans given')
  exact reads

/-- What is read is read from a row that is accepted. -/
theorem exists_row {fields : PivotFields} {records : List Record} {entry : PivotEntry α}
    (member : entry ∈ records.filterMap fields.contribution?) :
    ∃ row ∈ records.filter fields.accepts, fields.Reads row entry := by
  obtain ⟨row, present, given⟩ := List.mem_filterMap.mp member
  exact ⟨row, List.mem_filter.mpr ⟨present, accepts_of_contribution? given⟩,
    reads_of_contribution? given⟩

/-- Exactly the rows that are accepted are read, in their order. -/
theorem reads_filterMap (fields : PivotFields) (records : List Record) :
    List.Forall₂ (fields.Reads (α := α)) (records.filter fields.accepts)
      (records.filterMap fields.contribution?) :=
  forall₂_filter_filterMap (fun _ => contribution?_of_accepts)
    (fun _ => contribution?_of_not_accepts) records

end PivotFields

/-! ## Finished tables -/

namespace Pivot

/-- The value at a series and a category; nothing outside the table. -/
def cell? (pivot : Pivot α) (series category : Nat) : Option (Option α) :=
  pivot.cells[series]?.bind (·[category]?)

/-- A table holds the aggregation of some rows. -/
structure Tabulates (pivot : Pivot α) (aggregation : Aggregation)
    (entries : List (PivotEntry α)) : Prop where
  /-- There is a row of cells for each series. -/
  rows : pivot.cells.length = pivot.series.length
  /-- A row of cells has a cell for each category. -/
  columns : ∀ cells ∈ pivot.cells, cells.length = pivot.categories.length
  /-- The categories are those of the rows. -/
  categories : FirstSeen pivot.categories (entries.map (·.category))
  /-- No two categories are the same. -/
  distinctCategories : pivot.categories.Nodup
  /-- The series are those of the rows. -/
  series : FirstSeen pivot.series (entries.map (·.series))
  /-- No two series are the same. -/
  distinctSeries : pivot.series.Nodup
  /-- A category stands beside the cell that it was first read from. -/
  firstCells : pivot.categoryCells.map some = pivot.categories.map (firstCell? entries)
  /-- A category is the label of the cell beside it. -/
  labels : pivot.categoryCells.map Cell.label = pivot.categories.map some
  /-- A cell is the aggregation of the rows that carry its series and its category. -/
  cell : ∀ row column series category,
    pivot.series[row]? = some series → pivot.categories[column]? = some category →
      pivot.cell? row column = some (aggregation.ofValues (valuesAt entries series category))
  /-- A cell is a gap exactly when none of its rows has a value, unless rows are counted. -/
  gap : aggregation ≠ .count → ∀ row column series category,
    pivot.series[row]? = some series → pivot.categories[column]? = some category →
      (pivot.cell? row column = some none ↔
        ∀ value ∈ valuesAt entries series category, value = none)
  /-- A count is a gap exactly when there are no rows. -/
  uncounted : aggregation = .count → ∀ row column series category,
    pivot.series[row]? = some series → pivot.categories[column]? = some category →
      (pivot.cell? row column = some none ↔ valuesAt entries series category = [])

/-- The table of some rows, written down at once. -/
def tabulated (aggregation : Aggregation) (entries : List (PivotEntry α)) : Pivot α :=
  { categories := distinct (entries.map (·.category))
    categoryCells := (distinct (entries.map (·.category))).map fun category =>
      (firstCell? entries category).getD .null
    series := distinct (entries.map (·.series))
    cells := (distinct (entries.map (·.series))).map fun series =>
      (distinct (entries.map (·.category))).map fun category =>
        aggregation.ofValues (valuesAt entries series category) }

section Tabulated

variable {aggregation : Aggregation} {entries : List (PivotEntry α)}

theorem finish_foldl_add (aggregation : Aggregation) (entries : List (PivotEntry α)) :
    (entries.foldl PivotDraft.add PivotDraft.empty).finish aggregation =
      tabulated aggregation entries := by
  have cell (series category : String) :
      (PivotDraft.tallyAt entries series category).finish aggregation =
        aggregation.ofValues (valuesAt entries series category) :=
    Tally.finish_foldl_push aggregation _
  rw [PivotDraft.foldl_add_empty]
  simp only [PivotDraft.finish, PivotDraft.tallied, PivotDraft.table, tabulated, List.map_map,
    Function.comp_def, cell, List.map_id']

theorem cell?_tabulated {row column : Nat} {series category : String}
    (atRow : (tabulated aggregation entries).series[row]? = some series)
    (atColumn : (tabulated aggregation entries).categories[column]? = some category) :
    (tabulated aggregation entries).cell? row column =
      some (aggregation.ofValues (valuesAt entries series category)) := by
  rw [tabulated] at atRow atColumn
  rw [cell?, tabulated, List.getElem?_map, atRow, Option.map_some, Option.bind_some,
    List.getElem?_map, atColumn, Option.map_some]

/-- **The table of some rows holds their aggregation.** -/
theorem tabulates_tabulated
    (labelled : ∀ entry ∈ entries, Cell.label entry.cell = some entry.category) :
    (tabulated aggregation entries).Tabulates aggregation entries where
  rows := List.length_map _
  columns := by
    intro cells member
    obtain ⟨series, -, rfl⟩ := List.mem_map.mp member
    exact List.length_map _
  categories := firstSeen_distinct _
  distinctCategories := nodup_distinct _
  series := firstSeen_distinct _
  distinctSeries := nodup_distinct _
  firstCells := by
    rw [tabulated, List.map_map]
    refine List.map_congr_left fun category member => ?_
    obtain ⟨cell, found, -⟩ := exists_firstCell? labelled (mem_distinct.mp member)
    rw [Function.comp_apply, found, Option.getD_some]
  labels := by
    rw [tabulated, List.map_map]
    refine List.map_congr_left fun category member => ?_
    obtain ⟨cell, found, label⟩ := exists_firstCell? labelled (mem_distinct.mp member)
    rw [Function.comp_apply, found, Option.getD_some, label]
  cell _ _ _ _ atRow atColumn := cell?_tabulated atRow atColumn
  gap := by
    intro other row column series category atRow atColumn
    rw [cell?_tabulated atRow atColumn, Option.some.injEq]
    exact Aggregation.ofValues_eq_none_iff other
  uncounted := by
    rintro rfl row column series category atRow atColumn
    rw [cell?_tabulated atRow atColumn, Option.some.injEq]
    exact Aggregation.ofValues_count_eq_none_iff

end Tabulated

/-- **Without a limit on its counters a pivot is the dense table of the rows that have a category,
and a series where series are told apart.** -/
theorem tabulates_build (records : List Record) (fields : PivotFields)
    (aggregation : Aggregation) :
    (build records fields aggregation : Pivot α).Tabulates aggregation
      (records.filterMap fields.contribution?) := by
  rw [build, finish_foldl_add]
  refine tabulates_tabulated ?_
  intro entry member
  obtain ⟨row, -, given⟩ := List.mem_filterMap.mp member
  exact (PivotFields.reads_of_contribution? given).category

end Pivot

end ChartCompiler
