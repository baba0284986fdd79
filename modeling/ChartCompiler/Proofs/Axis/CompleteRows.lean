import ChartCompiler.Proofs.Axis.Categories
import ChartCompiler.Proofs.Number.Defined
import ChartCompiler.Proofs.Number.Ordered
import ChartCompiler.Proofs.Pivot.Rearrangement

/-!
# What complete rows show

A row is complete when it has a category and all five numbers.  Rows that are not complete leave no
trace: the categories that are shown are those of the complete rows, and each stands beside the
numbers of its last complete row in ascending order (`SummariesShown`).
-/

set_option autoImplicit false

namespace ChartCompiler

/-! ## Reading several cells -/

section Cells

variable {ι β : Type} {read : ι → Option β}

theorem mapM_eq_some_iff {items : List ι} {values : List β} :
    items.mapM read = some values ↔
      List.Forall₂ (fun item value => read item = some value) items values := by
  induction items generalizing values with
  | nil =>
      rw [List.mapM_nil, Option.pure_def, Option.some.injEq, List.forall₂_nil_left_iff, eq_comm]
  | cons item rest ih =>
      rw [List.mapM_cons, List.forall₂_cons_left_iff]
      simp only [Option.bind_eq_bind, Option.bind_eq_some_iff, Option.pure_def, Option.some.injEq,
        ih]
      constructor
      · rintro ⟨value, here, values, there, rfl⟩
        exact ⟨value, values, here, there, rfl⟩
      · rintro ⟨value, values, here, there, rfl⟩
        exact ⟨value, here, values, there, rfl⟩

theorem exists_forall₂_iff {items : List ι} :
    (∃ values, List.Forall₂ (fun item value => read item = some value) items values) ↔
      ∀ item ∈ items, (read item).isSome = true := by
  induction items with
  | nil => exact iff_of_true ⟨[], .nil⟩ nofun
  | cons item rest ih =>
      rw [List.forall_mem_cons, ← ih, Option.isSome_iff_exists]
      constructor
      · rintro ⟨values, reads⟩
        cases reads with
        | cons here there => exact ⟨⟨_, here⟩, _, there⟩
      · rintro ⟨⟨value, here⟩, values, there⟩
        exact ⟨value :: values, .cons here there⟩

end Cells

variable {α : Type}

/-! ## Complete rows -/

/-- A row that is complete. -/
structure CompleteRow (α : Type) where
  /-- The label of the category. -/
  category : String
  /-- The cell the label was read from. -/
  cell : Json
  /-- The numbers, in the order of their fields. -/
  numbers : List α

namespace CompleteRow

/-- Whether a row has a category and all numbers. -/
def accepts (category : String) (fields : List String) (row : Record) : Bool :=
  (row.label? category).isSome && fields.all fun field => (row.number? field).isSome

/-- What a complete row says. -/
structure Reads [Quantity α] (category : String) (fields : List String) (row : Record)
    (given : CompleteRow α) : Prop where
  cell : row.cell? category = some given.cell
  category : Cell.label given.cell = some given.category
  numbers : List.Forall₂ (fun field value => (row.number? field).map Quantity.ofFloat = some value)
    fields given.numbers

/-- The complete row of a record, if it is complete. -/
def ofRecord? [Quantity α] (category : String) (fields : List String) (row : Record) :
    Option (CompleteRow α) := do
  let cell ← row.cell? category
  let name ← Cell.label cell
  let numbers ← fields.mapM fun field => (row.number? field).map Quantity.ofFloat
  return { category := name, cell, numbers }

/-- The complete rows of some records. -/
def ofRecords [Quantity α] (category : String) (fields : List String) (rows : List Record) :
    List (CompleteRow α) :=
  rows.filterMap (ofRecord? category fields)

section Reading

variable [Quantity α] {category : String} {fields : List String} {row : Record}
  {rows : List Record} {given : CompleteRow α}

theorem ofRecord?_eq_some_iff :
    ofRecord? category fields row = some given ↔ Reads category fields row given := by
  simp only [ofRecord?, Option.bind_eq_bind, Option.bind_eq_some_iff, Option.pure_def,
    Option.some.injEq, mapM_eq_some_iff]
  constructor
  · rintro ⟨cell, here, name, labelled, numbers, read, rfl⟩
    exact ⟨here, labelled, read⟩
  · rintro ⟨here, labelled, read⟩
    exact ⟨_, here, _, labelled, _, read, rfl⟩

theorem accepts_iff : accepts category fields row = true ↔
    ∃ given : CompleteRow α, Reads category fields row given := by
  have numbers : (∀ field ∈ fields, (row.number? field).isSome = true) ↔
      ∃ values : List α, List.Forall₂ (fun field value =>
        (row.number? field).map Quantity.ofFloat = some value) fields values := by
    simp only [exists_forall₂_iff, Option.isSome_map]
  rw [accepts, Bool.and_eq_true, List.all_eq_true, numbers, Option.isSome_iff_exists]
  constructor
  · rintro ⟨⟨name, labelled⟩, values, read⟩
    obtain ⟨cell, here, label⟩ := Option.bind_eq_some_iff.mp labelled
    exact ⟨⟨name, cell, values⟩, here, label, read⟩
  · rintro ⟨given, here, label, read⟩
    exact ⟨⟨given.category, Option.bind_eq_some_iff.mpr ⟨given.cell, here, label⟩⟩, _, read⟩

theorem reads_ofRecords (category : String) (fields : List String) (rows : List Record) :
    List.Forall₂ (Reads (α := α) category fields) (rows.filter (accepts category fields))
      (ofRecords category fields rows) := by
  refine forall₂_filter_filterMap ?_ ?_ rows
  · intro row accepted
    obtain ⟨given, reads⟩ := (accepts_iff (α := α)).mp accepted
    exact ⟨given, ofRecord?_eq_some_iff.mpr reads, reads⟩
  · intro row refused
    refine Option.eq_none_iff_forall_ne_some.mpr fun given read => refused ?_
    exact accepts_iff.mpr ⟨given, ofRecord?_eq_some_iff.mp read⟩

/-- The five numbers of a row are put in ascending order. -/
theorem exists_ofUnsorted? {values : List α} (five : values.length = 5) :
    ∃ numbers, FiveNumbers.ofUnsorted? values = some numbers ∧
      numbers.toList = Quantity.ascending values := by
  have length : (Quantity.ascending values).length = 5 := (List.length_mergeSort _).trans five
  rw [FiveNumbers.ofUnsorted?]
  match Quantity.ascending values, length with
  | [lowest, lower, middle, upper, highest], _ => exact ⟨_, rfl, rfl⟩

theorem Reads.length (reads : Reads category fields row given) :
    given.numbers.length = fields.length :=
  reads.numbers.length_eq.symm

theorem Reads.ofRow? (reads : Reads category fields row given) :
    FiveNumbers.ofRow? fields row = FiveNumbers.ofUnsorted? given.numbers := by
  rw [FiveNumbers.ofRow?, mapM_eq_some_iff.mpr reads.numbers, Option.bind_some]

/-- A record that has five numbers but is not complete has no label for its category. -/
theorem unlabelled_of_ofRow? (some : (FiveNumbers.ofRow? (α := α) fields row).isSome = true)
    (incomplete : ofRecord? (α := α) category fields row = none) :
    ∀ cell, row.cell? category = Option.some cell → Cell.label cell = none := by
  obtain ⟨numbers, found⟩ := Option.isSome_iff_exists.mp some
  obtain ⟨values, read, -⟩ := Option.bind_eq_some_iff.mp found
  intro cell here
  refine Option.eq_none_iff_forall_ne_some.mpr fun name label => ?_
  have complete : ofRecord? category fields row = Option.some ⟨name, cell, values⟩ :=
    ofRecord?_eq_some_iff.mpr ⟨here, label, mapM_eq_some_iff.mp read⟩
  cases incomplete.symm.trans complete

theorem exists_record (member : given ∈ ofRecords category fields rows) :
    ∃ row ∈ rows, Reads category fields row given := by
  obtain ⟨row, present, complete⟩ := List.mem_filterMap.mp member
  exact ⟨row, present, ofRecord?_eq_some_iff.mp complete⟩

theorem ofRecords_append_of_incomplete
    (incomplete : ofRecord? (α := α) category fields row = none) :
    ofRecords (α := α) category fields (rows ++ [row]) = ofRecords category fields rows := by
  rw [ofRecords, List.filterMap_append, List.filterMap_cons_none incomplete, List.filterMap_nil,
    List.append_nil, ofRecords]

theorem ofRecords_append_of_complete (complete : ofRecord? category fields row = some given) :
    ofRecords category fields (rows ++ [row]) = ofRecords category fields rows ++ [given] := by
  rw [ofRecords, List.filterMap_append, List.filterMap_cons_some complete, List.filterMap_nil,
    ofRecords]

end Reading

/-- Complete rows as rows of a table, without values. -/
def sightings (given : List (CompleteRow α)) : List (PivotEntry α) :=
  given.map fun row =>
    { category := row.category, cell := row.cell, series := "", value := none }

theorem categories_sightings (given : List (CompleteRow α)) :
    categoriesOf (sightings given) = distinct (given.map (·.category)) := by
  rw [categoriesOf, sightings, List.map_map]
  rfl

end CompleteRow

open CompleteRow

/-! ## The summaries of complete rows -/

section Summaries

variable [Quantity α] {category : String} {fields : List String}

/-- The summary of a category, which its last complete row gives it. -/
def summaryOf? (given : List (CompleteRow α)) (name : String) : Option (FiveNumbers α) :=
  (given.filter (·.category = name)).getLast?.bind fun row => FiveNumbers.ofUnsorted? row.numbers

/-- The cells of complete rows are the labelled ones among the cells of rows with five numbers. -/
theorem cells_sightings (five : fields.length = 5) (rows : List Record) :
    ((rows.filter fun row => (FiveNumbers.ofRow? (α := α) fields row).isSome).filterMap
        (·.cell? category)).filter (fun cell => (Cell.label cell).isSome) =
      (sightings (ofRecords (α := α) category fields rows)).map (·.cell) := by
  rw [sightings, ofRecords, List.map_map, List.map_filterMap, List.filter_filterMap,
    List.filterMap_filter]
  refine List.filterMap_congr fun row _ => ?_
  cases complete : ofRecord? (α := α) category fields row with
  | none =>
    split
    case isTrue some =>
      refine Option.filter_eq_none_iff.mpr fun cell here => ?_
      rw [unlabelled_of_ofRow? some complete cell here]
      exact nofun
    case isFalse => rfl
  | some given =>
    have reads := ofRecord?_eq_some_iff.mp complete
    obtain ⟨numbers, sorted, -⟩ := exists_ofUnsorted? (reads.length.trans five)
    have labelled : (Cell.label given.cell).isSome = true := by
      rw [reads.category, Option.isSome_some]
    rw [reads.ofRow?, sorted, Option.isSome_some, if_pos rfl, reads.cell]
    exact Option.filter_some_pos labelled

/-- The categories that are registered are those of the complete rows. -/
theorem entries_register (category : String) (five : fields.length = 5) (rows : List Record) :
    (Summaries.ofRows category fields rows : Summaries α).register.entries =
      (categoriesOf (sightings (ofRecords (α := α) category fields rows))).map fun name =>
        (name, cellOf (sightings (ofRecords (α := α) category fields rows)) name) := by
  rw [Summaries.register_ofRows, ← CategoryRegister.ofCells_filter, cells_sightings five]
  apply CategoryRegister.entries_ofCells
  intro entry member
  obtain ⟨given, present, rfl⟩ := List.mem_map.mp member
  obtain ⟨row, -, reads⟩ := exists_record present
  exact reads.category

theorem names_register (category : String) (five : fields.length = 5) (rows : List Record) :
    (Summaries.ofRows category fields rows : Summaries α).register.entries.map (·.1) =
      categoriesOf (sightings (ofRecords (α := α) category fields rows)) := by
  rw [entries_register category five, List.map_map]
  exact List.map_id _

/-- A record that is not complete is passed over. -/
theorem add_of_incomplete {row : Record}
    (incomplete : ofRecord? (α := α) category fields row = none) (state : Summaries α) :
    state.add category fields row = state := by
  rw [Summaries.add]
  cases found : FiveNumbers.ofRow? (α := α) fields row with
  | none => rfl
  | some numbers =>
    have some := Option.isSome_iff_exists.mpr ⟨numbers, found⟩
    have passed : (row.cell? category).bind state.register.insert = none := by
      refine Option.bind_eq_none_iff.mpr fun cell here => ?_
      rw [CategoryRegister.insert, unlabelled_of_ofRow? some incomplete cell here]
    simp only [passed]

/-- A complete record gives its category its summary, and leaves the summaries of the others. -/
theorem summaries_add {row : Record} {given : CompleteRow α}
    (reads : Reads category fields row given) {numbers : FiveNumbers α}
    (sorted : FiveNumbers.ofUnsorted? given.numbers = some numbers) {state : Summaries α}
    {names : List String} (nodup : names.Nodup)
    (known : state.register.entries.map (·.1) = names) {summary : String → Option (FiveNumbers α)}
    (summaries : state.summaries.map some = names.map summary) :
    (state.add category fields row).summaries.map some =
      (addNew given.category names).map fun name =>
        if name = given.category then some numbers else summary name := by
  have length : state.summaries.length = state.register.entries.length := by
    simpa [← known] using congrArg List.length summaries
  rw [Summaries.add, reads.ofRow?, sorted]
  simp only [reads.cell, Option.bind_some]
  cases inserted : state.register.insert given.cell with
  | none =>
    simp only [CategoryRegister.insert, reads.category] at inserted
    split at inserted <;> cases inserted
  | some grown =>
    obtain ⟨position, register⟩ := grown
    obtain ⟨_, label, growth⟩ := Summaries.insert_cases inserted
    obtain rfl := Option.some.inj (label.symm.trans reads.category)
    rcases growth with ⟨-, first, here⟩ | ⟨new, rfl, -⟩
    -- A known category: its position is that of its name, and the summary there is replaced.
    · have inside := (List.getElem?_eq_some_iff.mp here).1
      have atName : names[position]? = some given.category := by
        rw [← known, List.getElem?_map, here, Option.map_some]
      have member := List.mem_of_getElem? atName
      have place : names.idxOf given.category = position :=
        (idxOf_eq_iff nodup atName member).mpr rfl
      simp only [length, inside.ne, if_false]
      rw [List.map_set, summaries, ← place, addNew_of_mem member, List.set_eq_modify]
      exact modify_idxOf_map nodup summary fun _ => some numbers
    -- A new category: its name and its summary are both added at the end.
    · rw [known] at new
      have others : names.map summary = names.map fun name =>
          if name = given.category then some numbers else summary name :=
        List.map_congr_left fun name member =>
          (if_neg fun same : name = given.category => new (same ▸ member)).symm
      simp only [length, if_true]
      rw [List.map_append, summaries, addNew_of_not_mem new, List.map_append, others,
        List.map_singleton, List.map_singleton, if_pos rfl]

/-- The last complete row of a category gives it its summary. -/
theorem summaryOf?_append (given : List (CompleteRow α)) (row : CompleteRow α) (name : String) :
    summaryOf? (given ++ [row]) name =
      if name = row.category then FiveNumbers.ofUnsorted? row.numbers
      else summaryOf? given name := by
  by_cases same : name = row.category
  · simp [summaryOf?, same]
  · simp [summaryOf?, same, Ne.symm same]

/-- **The summaries of some records stand beside the categories of the complete ones, and the
summary of a category is that of its last complete row.** -/
theorem summaries_ofRows (category : String) (five : fields.length = 5) (rows : List Record) :
    (Summaries.ofRows category fields rows : Summaries α).summaries.map some =
      (categoriesOf (sightings (ofRecords (α := α) category fields rows))).map
        (summaryOf? (ofRecords category fields rows)) := by
  induction rows using List.reverseRecOn with
  | nil => rfl
  | append_singleton rows row ih =>
      rw [Summaries.ofRows, List.foldl_append, List.foldl_cons, List.foldl_nil, ← Summaries.ofRows]
      cases complete : ofRecord? (α := α) category fields row with
      | none => rw [add_of_incomplete complete, ofRecords_append_of_incomplete complete, ih]
      | some given =>
        have reads := ofRecord?_eq_some_iff.mp complete
        obtain ⟨numbers, sorted, -⟩ := exists_ofUnsorted? (reads.length.trans five)
        have nodup : (categoriesOf (sightings (ofRecords (α := α) category fields rows))).Nodup :=
          nodup_distinct _
        rw [summaries_add reads sorted nodup (names_register category five rows) ih,
          ofRecords_append_of_complete complete, categories_sightings, categories_sightings,
          List.map_append, List.map_singleton, distinct_append_singleton]
        refine List.map_congr_left fun name _ => ?_
        rw [summaryOf?_append, sorted]

end Summaries

/-! ## What is shown -/

section Shown

variable [Quantity α]

/-- When a category first comes up, if its cell names an instant. -/
def momentOf (given : List (CompleteRow α)) (name : String) : Option Int :=
  moment? (cellOf (sightings given) name)

/-- A category comes up before another one. -/
def ComesBefore (given : List (CompleteRow α)) (earlier later : String) : Prop :=
  (given.map (·.category)).idxOf earlier < (given.map (·.category)).idxOf later

/-- Labels, titles and summaries are those of the categories of some complete rows. -/
structure SummariesShown (given : List (CompleteRow α)) (shown labels titles : List String)
    (summaries : List (FiveNumbers α)) : Prop where
  /-- The categories are those of the rows. -/
  mem_iff : ∀ name, name ∈ shown ↔ name ∈ given.map (·.category)
  /-- No category is shown twice. -/
  nodup : shown.Nodup
  /-- Categories that are not a time series stand in the order in which they first come up. -/
  firstSeen : (samplingOf (sightings given)).isTimeSeries = false →
    shown.Pairwise (ComesBefore given)
  /-- In a time series, what stands before a category with a moment has a moment that is no later.
  Categories of one moment, and those without one, stand in the order in which they first come
  up. -/
  chronological : (samplingOf (sightings given)).isTimeSeries = true →
    shown.Pairwise fun earlier later =>
      (∀ moment ∈ momentOf given later, ∃ before ∈ momentOf given earlier, before ≤ moment) ∧
        (momentOf given earlier = momentOf given later → ComesBefore given earlier later)
  /-- The labels on the axis are those of the categories. -/
  labels : labels = shown.map (labelOf (sightings given) .axis)
  /-- The titles of the tooltips are those of the categories. -/
  titles : titles = shown.map (labelOf (sightings given) .tooltip)
  /-- The summary of a category holds the numbers of its last row in ascending order. -/
  summaries : List.Forall₂ (fun name numbers =>
      ∃ row, (given.filter (·.category = name)).getLast? = some row ∧
        numbers.toList.Perm row.numbers ∧ numbers.toList.Pairwise (· ≤ ·))
    shown summaries

theorem SummariesShown.ascending {given : List (CompleteRow α)}
    {shown labels titles : List String} {summaries : List (FiveNumbers α)}
    (parts : SummariesShown given shown labels titles summaries) :
    ∀ numbers ∈ summaries, numbers.toList.Pairwise (· ≤ ·) := by
  have each := parts.summaries.flip.imp fun numbers name described =>
    show numbers.toList.Pairwise (· ≤ ·) ∧ True by
      obtain ⟨row, -, -, ascending⟩ := described
      exact ⟨ascending, trivial⟩
  exact ((List.forall₂_and_left _ _).mp each).1

omit [Quantity α] in
theorem firstSeen_categoriesOf (given : List (CompleteRow α)) :
    FirstSeen (categoriesOf (sightings given)) (given.map (·.category)) :=
  categories_sightings given ▸ firstSeen_distinct _

omit [Quantity α] in
/-- Categories in display order are in order of time, and otherwise in the order in which they first
come up. -/
theorem pairwise_shownCategories (given : List (CompleteRow α))
    (time : (samplingOf (sightings given)).isTimeSeries = true) :
    (shownCategories (sightings given)).Pairwise fun earlier later =>
      (∀ moment ∈ momentOf given later, ∃ before ∈ momentOf given earlier, before ≤ moment) ∧
        (momentOf given earlier = momentOf given later → ComesBefore given earlier later) := by
  rw [shownCategories, if_pos time, pick_chronologicalOrder, byMoment]
  refine (pairwise_mergeSort_stable ?trans ?total (firstSeen_categoriesOf given).order).imp ?_
  case trans =>
    intro first second third
    exact momentLE_trans _ _ _
  case total =>
    intro first second
    exact momentLE_total _ _
  rintro earlier later ⟨before, tie⟩
  refine ⟨momentLE_iff_forall.mp before, fun same => tie ?_⟩
  exact momentLE_iff_forall.mpr fun moment here => ⟨moment, same.symm.trans here, le_rfl⟩

/-- The numbers of a complete row can be compared. -/
theorem CompleteRow.Reads.defined [Quantity.Ordered α] {category : String} {fields : List String}
    {row : Record} {given : CompleteRow α} (reads : Reads category fields row given) :
    ∀ value ∈ given.numbers, value ≤ value := by
  have each := reads.numbers.flip.imp fun value field (read : _ = _) =>
    show value ≤ value ∧ (row.number? field).map Quantity.ofFloat = some value by
      obtain ⟨number, found, rfl⟩ := Option.map_eq_some_iff.mp read
      obtain ⟨cell, -, held⟩ := Option.bind_eq_some_iff.mp found
      exact ⟨Quantity.Ordered.le_self_ofFloat number (Cell.le_self_of_number held), read⟩
  exact ((List.forall₂_and_left _ _).mp each).1

/-- A summary holds the numbers of the last row of its category in ascending order. -/
theorem summaryOf?_spec [Quantity.Ordered α] {category : String} {fields : List String}
    (five : fields.length = 5) {rows : List Record} {name : String} {numbers : FiveNumbers α}
    (found : summaryOf? (ofRecords category fields rows) name = some numbers) :
    ∃ row : CompleteRow α,
      ((ofRecords category fields rows).filter (·.category = name)).getLast? = some row ∧
        numbers.toList.Perm row.numbers ∧ numbers.toList.Pairwise (· ≤ ·) := by
  obtain ⟨row, last, sorted⟩ := Option.bind_eq_some_iff.mp found
  obtain ⟨record, -, reads⟩ := exists_record (List.mem_of_mem_filter (List.mem_of_getLast? last))
  obtain ⟨_, sorted', ascending⟩ := exists_ofUnsorted? (reads.length.trans five)
  obtain rfl := Option.some.inj (sorted'.symm.trans sorted)
  rw [ascending]
  exact ⟨row, last, List.mergeSort_perm _ _, Quantity.pairwise_ascending reads.defined⟩

/-- **Complete rows are shown by category.** -/
theorem summariesShown_ofRows [Quantity.Ordered α] {category : String} {fields : List String}
    (five : fields.length = 5) (rows : List Record) :
    let found : Summaries α := .ofRows category fields rows
    let given : List (CompleteRow α) := ofRecords category fields rows
    SummariesShown given (shownCategories (sightings given)) found.register.display.labels
      found.register.display.titles (pick found.register.display.order found.summaries) := by
  intro found given
  obtain ⟨order, labels, titles⟩ := CategoryRegister.display_of_entries
    (entries_register (α := α) category five rows)
  refine ⟨?mem_iff, nodup_shownCategories _, ?firstSeen, pairwise_shownCategories given, labels,
    titles, ?summaries⟩
  case mem_iff =>
    intro name
    rw [(shownCategories_perm _).mem_iff]
    exact (firstSeen_categoriesOf given).mem_iff name
  case firstSeen =>
    intro unordered
    rw [shownCategories, if_neg (by simp [unordered])]
    exact (firstSeen_categoriesOf given).order
  case summaries =>
    have beside := congrArg (pick found.register.display.order)
      (summaries_ofRows (α := α) category five rows)
    rw [pick_map, pick_map, order] at beside
    have pairs : List.Forall₂ (· = ·) _ _ := List.forall₂_eq_eq_eq ▸ beside.symm
    rw [List.forall₂_map_left_iff, List.forall₂_map_right_iff] at pairs
    exact pairs.imp fun name numbers found => summaryOf?_spec five found

end Shown

end ChartCompiler
