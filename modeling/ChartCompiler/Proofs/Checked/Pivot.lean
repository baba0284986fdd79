import ChartCompiler.Proofs.Checked.Operation
import ChartCompiler.Proofs.Pivot.Display

/-!
# Tables with their checks

A row is added to a table at two positions, that of its series and that of its category.  Both are
inside the table because the table is dense: it has a row of cells for each series and every row has
a cell for each category, before a row is added, while it is added and afterwards.  A finished table
stays dense when its categories are put in order.
-/

set_option autoImplicit false

namespace ChartCompiler

variable {α : Type}

/-! ## Picking -/

def pickChecked {β : Type} (order : List Nat) (items : List β) : Checked (List β) :=
  order.mapM (Checked.item items)

theorem pickChecked_eq {β : Type} {order : List Nat} {items : List β}
    (inside : ∀ position ∈ order, position < items.length) :
    pickChecked order items = pure (pick order items) := by
  induction order with
  | nil => rfl
  | cons position order ih =>
      rw [List.forall_mem_cons] at inside
      have here : items[position]? = some items[position] := List.getElem?_eq_getElem inside.1
      have later := ih inside.2
      rw [pickChecked] at later
      rw [pickChecked, List.mapM_cons, Checked.item_eq here, pure_bind, later, pure_bind, pick,
        pick, List.filterMap_cons_some here]

/-- `chronologicalOrder` with its checks, for a number of categories. -/
def chronologicalOrderChecked (count : Nat) (cells : List Json) : Checked (List Nat) := do
  let moments := cells.map moment?
  let timed ← (List.range count).mapM fun position => do
    return (position, ← Checked.item moments position)
  return (timed.mergeSort fun left right => momentLE left.2 right.2).map (·.1)

theorem chronologicalOrderChecked_eq {count : Nat} {cells : List Json}
    (beside : cells.length = count) :
    chronologicalOrderChecked count cells = pure (chronologicalOrder cells) := by
  subst beside
  let moment (position : Nat) : Option Int := ((cells.map moment?)[position]?).join
  have timed : (List.range cells.length).mapM (fun position => do
      return (position, ← Checked.item (cells.map moment?) position)) =
      (pure ((List.range cells.length).map fun position => (position, moment position)) :
        Checked _) := by
    refine Checked.mapM_eq fun position member => ?_
    have inside : position < (cells.map moment?).length := by
      rw [List.length_map]
      exact List.mem_range.mp member
    rw [Checked.item_of_lt inside, pure_bind]
    simp only [moment, List.getElem?_eq_getElem inside, Option.join_some]
  rw [chronologicalOrderChecked, timed, pure_bind]
  refine congrArg pure ?_
  -- Sorting positions by their moments is sorting them beside their moments.
  rw [List.map_mergeSort (s := fun left right => momentLE (moment left) (moment right)),
    List.map_map]
  · exact congrArg (List.mergeSort · _) (List.map_id _)
  · intro left here right there
    obtain ⟨_, _, rfl⟩ := List.mem_map.mp here
    obtain ⟨_, _, rfl⟩ := List.mem_map.mp there
    rfl

/-! ## Drafts -/

namespace PivotDraft

/-- There is a row of tallies for each series, with a tally for each category. -/
structure Dense (draft : PivotDraft α) : Prop where
  rows : draft.tallies.length = draft.series.length
  columns : ∀ row ∈ draft.tallies, row.length = draft.categories.length

/-- The position of a category, which is added when it is new. -/
def categoryChecked (draft : PivotDraft α) (category : String) (cell : Json) :
    Checked (Nat × PivotDraft α) :=
  match draft.categories.findIdx? (·.1 = category) with
  | some position => pure (position, draft)
  | none => do
    let grown := draft.withCategory category cell
    return (← Checked.minus grown.categories.length 1, grown)

/-- The position of a series, which is added when it is new. -/
def seriesChecked (draft : PivotDraft α) (series : String) : Checked (Nat × PivotDraft α) :=
  match draft.series.idxOf? series with
  | some position => pure (position, draft)
  | none => do
    let grown := draft.withSeries series
    return (← Checked.minus grown.series.length 1, grown)

def addChecked [Quantity α] (draft : PivotDraft α) (entry : PivotEntry α) :
    Checked (PivotDraft α) := do
  let (category, draft) ← draft.categoryChecked entry.category entry.cell
  let (series, draft) ← draft.seriesChecked entry.series
  let tallies ← Checked.revise draft.tallies series fun row =>
    Checked.change row category fun tally => tally.push entry.value
  return { draft with tallies }

section Grown

variable {draft : PivotDraft α}

theorem withCategory_of_mem {category : String} (cell : Json)
    (known : category ∈ draft.categories.map (·.1)) : draft.withCategory category cell = draft := by
  refine if_pos ?_
  simpa using known

theorem withCategory_of_not_mem {category : String} (cell : Json)
    (absent : category ∉ draft.categories.map (·.1)) :
    draft.withCategory category cell =
      { draft with
        categories := draft.categories ++ [(category, cell)]
        tallies := draft.tallies.map (· ++ [Tally.empty]) } := by
  refine if_neg ?_
  simpa using absent

theorem mem_withCategory (draft : PivotDraft α) (category : String) (cell : Json) :
    category ∈ (draft.withCategory category cell).categories.map (·.1) := by
  by_cases known : category ∈ draft.categories.map (·.1)
  · rwa [withCategory_of_mem cell known]
  · rw [withCategory_of_not_mem cell known, List.map_append]
    exact List.mem_append_right _ (List.mem_singleton_self _)

theorem categories_withSeries (draft : PivotDraft α) (series : String) :
    (draft.withSeries series).categories = draft.categories := by
  rw [withSeries]
  split <;> rfl

theorem series_withSeries (draft : PivotDraft α) (series : String) :
    (draft.withSeries series).series = addNew series draft.series := by
  rw [withSeries, addNew]
  by_cases known : series ∈ draft.series
  · rw [if_pos (by simpa using known), if_pos known]
  · rw [if_neg (by simpa using known), if_neg known]

theorem dense_withCategory (dense : draft.Dense) (category : String) (cell : Json) :
    (draft.withCategory category cell).Dense := by
  by_cases known : category ∈ draft.categories.map (·.1)
  · rwa [withCategory_of_mem cell known]
  · rw [withCategory_of_not_mem cell known]
    refine ⟨by simpa using dense.rows, fun row member => ?_⟩
    obtain ⟨before, here, rfl⟩ := List.mem_map.mp member
    rw [List.length_append, List.length_append, dense.columns before here]
    rfl

theorem dense_withSeries (dense : draft.Dense) (series : String) :
    (draft.withSeries series).Dense := by
  rw [withSeries]
  split
  · exact dense
  · refine ⟨by simp [dense.rows], fun row member => ?_⟩
    rcases List.mem_append.mp member with before | added
    · exact dense.columns row before
    · rw [List.mem_singleton.mp added, List.length_replicate]

theorem dense_push [Quantity α] (dense : draft.Dense) (series category : Nat) (value : Option α) :
    (draft.push series category value).Dense := by
  refine ⟨by simpa [push] using dense.rows, fun row member => ?_⟩
  obtain ⟨position, inside, rfl⟩ := List.mem_iff_getElem.mp member
  simp only [push, List.getElem_modify]
  split <;> simp [dense.columns]

theorem dense_add [Quantity α] (dense : draft.Dense) (entry : PivotEntry α) :
    (draft.add entry).Dense :=
  dense_push (dense_withSeries (dense_withCategory dense _ _) _) _ _ _

theorem categoryChecked_eq (draft : PivotDraft α) (category : String) (cell : Json) :
    draft.categoryChecked category cell =
      pure (((draft.withCategory category cell).categories.map (·.1)).idxOf category,
        draft.withCategory category cell) := by
  have position : draft.categories.findIdx? (·.1 = category) =
      (draft.categories.map (·.1)).idxOf? category := by
    rw [List.idxOf?, List.findIdx?_map]
    rfl
  rw [categoryChecked, position]
  cases found : (draft.categories.map (·.1)).idxOf? category with
  | some position =>
      have known := List.isSome_idxOf?.mp (Option.isSome_of_eq_some found)
      rw [withCategory_of_mem cell known, List.idxOf_eq_getD_idxOf?, found, Option.getD_some]
  | none =>
      have absent := List.idxOf?_eq_none_iff.mp found
      simp only [withCategory_of_not_mem cell absent, Checked.minus_length_append_singleton,
        pure_bind, List.map_append, List.idxOf_append_of_notMem absent]
      simp

theorem seriesChecked_eq (draft : PivotDraft α) (series : String) :
    draft.seriesChecked series =
      pure ((draft.withSeries series).series.idxOf series, draft.withSeries series) := by
  rw [seriesChecked, series_withSeries, idxOf_addNew_self]
  cases found : draft.series.idxOf? series with
  | some position =>
      have known : series ∈ draft.series :=
        List.isSome_idxOf?.mp (Option.isSome_of_eq_some found)
      have same : draft.withSeries series = draft := if_pos (by simpa using known)
      rw [same, List.idxOf_eq_getD_idxOf?, found, Option.getD_some]
  | none =>
      have absent := List.idxOf?_eq_none_iff.mp found
      simp only [series_withSeries, addNew_of_not_mem absent,
        Checked.minus_length_append_singleton, pure_bind, List.idxOf_eq_length absent]

/-- A row is added inside the table. -/
theorem addChecked_eq [Quantity α] (dense : draft.Dense) (entry : PivotEntry α) :
    draft.addChecked entry = pure (draft.add entry) := by
  let grown := (draft.withCategory entry.category entry.cell).withSeries entry.series
  have dense' : grown.Dense := dense_withSeries (dense_withCategory dense _ _) _
  have known : entry.category ∈ grown.categories.map (·.1) := by
    rw [categories_withSeries]
    exact mem_withCategory draft entry.category entry.cell
  have rowInside : grown.series.idxOf entry.series < grown.tallies.length := by
    rw [dense'.rows, series_withSeries]
    exact List.idxOf_lt_length_of_mem (mem_addNew.mpr (.inr rfl))
  have columnInside : ∀ row ∈ grown.tallies,
      (grown.categories.map (·.1)).idxOf entry.category < row.length := by
    intro row member
    rw [dense'.columns row member, ← List.length_map (·.1)]
    exact List.idxOf_lt_length_of_mem known
  have pushed := Checked.revise_eq rowInside fun row member =>
    Checked.change_eq (columnInside row member) fun tally => tally.push entry.value
  simp only [addChecked, categoryChecked_eq, seriesChecked_eq, pure_bind]
  rw [← categories_withSeries (draft.withCategory entry.category entry.cell) entry.series, pushed]
  rfl

end Grown

end PivotDraft

/-! ## Tables -/

variable [Quantity α]

namespace Pivot

/-- There is a row of cells for each series, with a cell for each category; a category stands beside
the cell it was first read from. -/
structure Dense (pivot : Pivot α) : Prop where
  beside : pivot.categoryCells.length = pivot.categories.length
  rows : pivot.cells.length = pivot.series.length
  columns : ∀ row ∈ pivot.cells, row.length = pivot.categories.length

omit [Quantity α] in
theorem Dense.column {pivot : Pivot α} (dense : pivot.Dense) {row : List (Option α)}
    (member : row ∈ pivot.cells) {category : Nat} (inside : category < pivot.categories.length) :
    category < row.length := by
  rwa [dense.columns row member]

theorem dense_arranged (aggregation : Aggregation) (entries : List (PivotEntry α))
    (categories : List String) : (arranged aggregation entries categories).Dense := by
  refine ⟨List.length_map _, List.length_map _, fun row member => ?_⟩
  obtain ⟨series, -, rfl⟩ := List.mem_map.mp member
  exact List.length_map _

def buildChecked (rows : List Record) (fields : PivotFields) (aggregation : Aggregation) :
    Checked (Pivot α) := do
  let draft ← (rows.filterMap fields.contribution?).foldlM PivotDraft.addChecked PivotDraft.empty
  return draft.finish aggregation

theorem buildChecked_eq (rows : List Record) (fields : PivotFields) (aggregation : Aggregation) :
    buildChecked rows fields aggregation =
      (pure (build rows fields aggregation) : Checked (Pivot α)) := by
  have start : (PivotDraft.empty : PivotDraft α).Dense := ⟨rfl, fun _ => nofun⟩
  rw [buildChecked, Checked.foldlM_eq PivotDraft.Dense start
    (fun _ _ _ dense => PivotDraft.addChecked_eq dense _)
    (fun _ _ _ dense => PivotDraft.dense_add dense _), pure_bind]
  rfl

theorem dense_build (rows : List Record) (fields : PivotFields) (aggregation : Aggregation) :
    (build rows fields aggregation : Pivot α).Dense := by
  rw [build, finish_foldl_add]
  exact dense_arranged aggregation _ _

def chronologicalChecked (pivot : Pivot α) : Checked (Pivot α) := do
  let order ← chronologicalOrderChecked pivot.categories.length pivot.categoryCells
  let categories ← pickChecked order pivot.categories
  let categoryCells ← pickChecked order pivot.categoryCells
  let cells ← pivot.cells.mapM (pickChecked order)
  return { pivot with categories, categoryCells, cells }

omit [Quantity α] in
/-- The order of the categories is one of all rows of a dense table. -/
theorem chronologicalChecked_eq {pivot : Pivot α} (dense : pivot.Dense) :
    pivot.chronologicalChecked = pure pivot.chronological := by
  have inside : ∀ position ∈ chronologicalOrder pivot.categoryCells,
      position < pivot.categories.length := by
    intro position member
    rw [← dense.beside]
    exact List.mem_range.mp ((chronologicalOrder_perm _).mem_iff.mp member)
  have rows : pivot.cells.mapM (pickChecked (chronologicalOrder pivot.categoryCells)) =
      pure (pivot.cells.map (pick (chronologicalOrder pivot.categoryCells))) :=
    Checked.mapM_eq fun row member =>
      pickChecked_eq fun position here => dense.column member (inside position here)
  rw [chronologicalChecked, chronologicalOrderChecked_eq dense.beside, pure_bind,
    pickChecked_eq inside, pure_bind,
    pickChecked_eq fun position member => dense.beside ▸ inside position member, pure_bind, rows]
  rfl

end Pivot

namespace TimedPivot

def buildChecked (rows : List Record) (fields : PivotFields) (aggregation : Aggregation) :
    Checked (TimedPivot α) := do
  let pivot ← Pivot.buildChecked rows fields aggregation
  let time := Sampling.ofCells pivot.categoryCells
  if time.isTimeSeries then return { pivot := ← pivot.chronologicalChecked, time }
  else return { pivot, time }

theorem buildChecked_eq (rows : List Record) (fields : PivotFields) (aggregation : Aggregation) :
    buildChecked rows fields aggregation =
      (pure (build rows fields aggregation) : Checked (TimedPivot α)) := by
  have dense : (Pivot.build rows fields aggregation : Pivot α).Dense := Pivot.dense_build _ _ _
  simp only [buildChecked, Pivot.buildChecked_eq, pure_bind, Pivot.chronologicalChecked_eq dense,
    build]
  split <;> rfl

end TimedPivot

end ChartCompiler
