import ChartCompiler.Proofs.Checked.Pivot
import ChartCompiler.Proofs.Number.Rank
import ChartCompiler.Proofs.Pivot.Chronology

/-!
# Tables in order of time

Putting a table in order of time moves all of its parts at once.  One rearrangement of the
categories takes the labels, the cells they were read from, every row of the table and the totals of
the columns to what they are afterwards.  It puts categories with a moment in ascending order before
those without one and exchanges no others, so a table that is in order stays as it is
(`chronological_ordered`).

Totals are computed column by column, so they move along without a change.  The largest value is
found by comparing all values in the order of the table: another order can only give another value
that compares the same.
-/

set_option autoImplicit false

namespace ChartCompiler

/-! ## Rearrangements -/

section Moves

variable {β : Type} {count : Nat} {rearrangement : Equiv.Perm (Fin count)} {order : List Nat}

/-- A rearrangement takes a list to another one: what stands at a place afterwards comes from the
position that the rearrangement gives. -/
structure Moves (rearrangement : Equiv.Perm (Fin count)) (before after : List β) : Prop where
  length_before : before.length = count
  length_after : after.length = count
  item : ∀ place : Fin count, after[place.val]? = before[(rearrangement place).val]?

/-- A list of all positions is a rearrangement. -/
theorem exists_rearrangement (all : order.Perm (List.range count)) :
    ∃ rearrangement : Equiv.Perm (Fin count),
      ∀ place : Fin count, order[place.val]? = some (rearrangement place).val := by
  have length : count = order.length := by simpa using all.length_eq.symm
  have inside (place : Fin order.length) : order.get place < count :=
    List.mem_range.mp (all.mem_iff.mp (List.get_mem order place))
  have distinct : order.Nodup := all.nodup_iff.mpr List.nodup_range
  let position (place : Fin count) : Fin count := ⟨order.get (place.cast length), inside _⟩
  have injective : Function.Injective position := fun first second same =>
    Fin.cast_injective length (distinct.injective_get (congrArg Fin.val same))
  refine ⟨.ofBijective position (Finite.injective_iff_bijective.mp injective), fun place => ?_⟩
  exact List.getElem?_eq_getElem (place.cast length).isLt

/-- Picking by a rearrangement moves the items. -/
theorem moves_pick (all : order.Perm (List.range count))
    (given : ∀ place : Fin count, order[place.val]? = some (rearrangement place).val)
    {items : List β} (length : items.length = count) :
    Moves rearrangement items (pick order items) := by
  have inside (position : Nat) (member : position ∈ order) : position < items.length :=
    length ▸ List.mem_range.mp (all.mem_iff.mp member)
  refine ⟨length, ?_, fun place => ?_⟩
  · rw [length_pick inside, all.length_eq, List.length_range]
  · rw [getElem?_pick inside, given place, Option.bind_some]

end Moves

/-! ## Moments -/

/-- What comes before a moment is a moment, and no later. -/
theorem momentLE_iff_forall {first second : Option Int} :
    momentLE first second = true ↔
      ∀ moment ∈ second, ∃ earlier ∈ first, earlier ≤ moment := by
  cases first <;> cases second <;> simp [momentLE]

section Order

variable {cells : List Json}

/-- The moment of the cell at a position. -/
def momentAt (cells : List Json) (position : Nat) : Option Int :=
  (cells[position]?).bind moment?

theorem chronologicalOrder_eq (cells : List Json) :
    chronologicalOrder cells = (List.range cells.length).mergeSort fun left right =>
      momentLE (momentAt cells left) (momentAt cells right) := by
  have moment (position : Nat) :
      ((cells.map moment?)[position]?).join = momentAt cells position := by
    rw [List.getElem?_map, momentAt]
    cases cells[position]? <;> rfl
  simp only [chronologicalOrder, moment]

/-- Positions of one moment, and positions without a moment, are not exchanged. -/
theorem pairwise_chronologicalOrder (cells : List Json) :
    (chronologicalOrder cells).Pairwise fun first second =>
      momentLE (momentAt cells first) (momentAt cells second) = true ∧
        (momentAt cells first = momentAt cells second → first < second) := by
  rw [chronologicalOrder_eq]
  refine (pairwise_mergeSort_stable (fun first second third => ?_) (fun first second => ?_)
    (List.pairwise_lt_range (n := cells.length))).imp ?_
  · exact momentLE_trans _ _ _
  · exact momentLE_total _ _
  · rintro first second ⟨before, tie⟩
    exact ⟨before, fun same => tie (same ▸ before)⟩

/-- Cells are put in order of time. -/
theorem pairwise_pick_chronologicalOrder (cells : List Json) :
    (pick (chronologicalOrder cells) cells).Pairwise fun earlier later =>
      momentLE (moment? earlier) (moment? later) = true := by
  refine (pairwise_chronologicalOrder cells).filterMap _ fun first second ordered => ?_
  rintro earlier here later there
  simpa only [momentAt, Option.mem_def.mp here, Option.mem_def.mp there, Option.bind_some]
    using ordered.1

/-- Cells that are in order stay where they are. -/
theorem chronologicalOrder_eq_range
    (sorted : cells.Pairwise fun earlier later =>
      momentLE (moment? earlier) (moment? later) = true) :
    chronologicalOrder cells = List.range cells.length := by
  rw [chronologicalOrder_eq]
  refine List.mergeSort_of_pairwise (List.pairwise_lt_range.imp_of_mem ?_)
  intro first second here there before
  have ordered := List.pairwise_iff_getElem.mp sorted first second (List.mem_range.mp here)
    (List.mem_range.mp there) before
  simpa only [momentAt, List.getElem?_eq_getElem (List.mem_range.mp here),
    List.getElem?_eq_getElem (List.mem_range.mp there), Option.bind_some] using ordered

end Order

/-! ## Largest values -/

/-- The largest of some quantities depends on their order only as far as they compare the same. -/
theorem Quantity.Ranked.agree_of_perm {α ρ : Type} [Quantity α] [LinearOrder ρ]
    {rank : α → WithBot ρ} (ranked : Quantity.Ranked rank) {values values' : List α}
    (perm : values.Perm values') :
    Option.Rel Quantity.Agree (Aggregation.foldFirst Quantity.greatest values)
      (Aggregation.foldFirst Quantity.greatest values') := by
  -- Unlike the larger of two quantities, the larger of two ranks is the same from both sides.
  have ranks := Aggregation.foldFirst_perm max_comm max_assoc (perm.map rank)
  rw [← Aggregation.map_foldFirst ranked.rank_greatest,
    ← Aggregation.map_foldFirst ranked.rank_greatest] at ranks
  generalize Aggregation.foldFirst Quantity.greatest values = largest at ranks ⊢
  generalize Aggregation.foldFirst Quantity.greatest values' = largest' at ranks ⊢
  cases largest with
  | none =>
      cases largest' with
      | none => exact .none
      | some value => cases ranks
  | some value =>
      cases largest' with
      | none => cases ranks
      | some value' => exact .some (ranked.agree (Option.some.inj ranks))

/-! ## Tables -/

namespace Pivot

variable {α : Type} {pivot : Pivot α} {order : List Nat}

/-- A table keeps its shape in any order. -/
theorem dense_reorder (dense : pivot.Dense)
    (all : order.Perm (List.range pivot.categories.length)) : (pivot.reorder order).Dense := by
  have length {β : Type} {items : List β} (same : items.length = pivot.categories.length) :
      (pick order items).length = pivot.categories.length := by
    refine (length_pick fun position member => ?_).trans (by simpa using all.length_eq)
    exact same ▸ List.mem_range.mp (all.mem_iff.mp member)
  refine ⟨?_, ?_, fun row member => ?_⟩
  · exact (length dense.beside).trans (length rfl).symm
  · exact (List.length_map _).trans dense.rows
  · obtain ⟨row, present, rfl⟩ := List.mem_map.mp member
    exact (length (dense.columns row present)).trans (length rfl).symm

/-- A table in the order it has is the same table. -/
theorem reorder_range (dense : pivot.Dense) :
    pivot.reorder (List.range pivot.categories.length) = pivot := by
  have rows : pivot.cells.map (pick (List.range pivot.categories.length)) = pivot.cells := by
    conv_rhs => rw [← List.map_id pivot.cells]
    refine List.map_congr_left fun row member => ?_
    rw [← dense.columns row member, pick_range, id]
  have cells : pick (List.range pivot.categories.length) pivot.categoryCells =
      pivot.categoryCells := by
    rw [← dense.beside, pick_range]
  rw [reorder, rows, cells, pick_range]

/-- The values of a table are rearranged along with its rows. -/
theorem values_reorder_perm (dense : pivot.Dense)
    (all : order.Perm (List.range pivot.categories.length)) :
    (pivot.reorder order).values.Perm pivot.values := by
  refine List.Perm.filterMap id (List.Perm.flatten_congr ?_)
  refine List.forall₂_map_left_iff.mpr (List.forall₂_same.mpr fun row member => ?_)
  exact pick_perm ((dense.columns row member).symm ▸ all)

/-- A value stays in the row of its series, so the totals of the columns move along. -/
theorem moves_columnTotals [Quantity α] (dense : pivot.Dense)
    (all : order.Perm (List.range pivot.categories.length))
    {rearrangement : Equiv.Perm (Fin pivot.categories.length)}
    (given : ∀ place, order[place.val]? = some (rearrangement place).val) :
    Moves rearrangement pivot.columnTotals (pivot.reorder order).columnTotals := by
  have count : (pick order pivot.categories).length = pivot.categories.length :=
    (moves_pick all given rfl).length_after
  have column (place : Fin pivot.categories.length) :
      (pivot.reorder order).column place.val = pivot.column (rearrangement place).val := by
    rw [column, column, reorder, List.filterMap_map]
    refine List.filterMap_congr fun row member => ?_
    have moved := (moves_pick all given (dense.columns row member)).item place
    exact congrArg Option.join moved
  refine ⟨by simp [columnTotals], by simpa [columnTotals, reorder] using count, fun place => ?_⟩
  have inside : place.val < (pivot.reorder order).categories.length := count.symm ▸ place.isLt
  rw [columnTotals, columnTotals, List.getElem?_map, List.getElem?_map, List.getElem?_range inside,
    List.getElem?_range (rearrangement place).isLt, Option.map_some, Option.map_some, column]

/-- A table is put in order of time by a rearrangement of its categories. -/
structure OrderedBy [Quantity α] {count : Nat} (rearrangement : Equiv.Perm (Fin count))
    (before after : Pivot α) : Prop where
  categories : Moves rearrangement before.categories after.categories
  categoryCells : Moves rearrangement before.categoryCells after.categoryCells
  cells : List.Forall₂ (Moves rearrangement) before.cells after.cells
  series : after.series = before.series
  columnTotals : Moves rearrangement before.columnTotals after.columnTotals
  /-- The largest value is the same, or at least compares the same. -/
  largestValue : Option.Rel Quantity.Agree after.largestValue before.largestValue
  /-- What comes before a category with a moment has a moment as well, and no later one. -/
  ordered : after.categoryCells.Pairwise fun earlier later =>
    ∀ moment ∈ moment? later, ∃ moment' ∈ moment? earlier, moment' ≤ moment
  /-- Categories of one moment, and categories without a moment, are not exchanged. -/
  stable : ∀ first second : Fin count, first < second →
    momentAt before.categoryCells (rearrangement first) =
      momentAt before.categoryCells (rearrangement second) →
    rearrangement first < rearrangement second

theorem largestValue_eq [Quantity α] (pivot : Pivot α) :
    pivot.largestValue = Aggregation.foldFirst Quantity.greatest pivot.values := by
  rw [largestValue]
  cases pivot.values <;> rfl

theorem chronologicalOrder_perm_categories (dense : pivot.Dense) :
    (chronologicalOrder pivot.categoryCells).Perm (List.range pivot.categories.length) :=
  dense.beside ▸ chronologicalOrder_perm pivot.categoryCells

/-- **A table of doubles is put in order of time by a rearrangement of its categories, and stays as
it is when that is done again.** -/
theorem chronological_ordered (pivot : Pivot Float) (dense : pivot.Dense) :
    (∃ rearrangement : Equiv.Perm (Fin pivot.categories.length),
      OrderedBy rearrangement pivot pivot.chronological) ∧
      pivot.chronological.chronological = pivot.chronological := by
  have all := chronologicalOrder_perm_categories dense
  have sorted := pairwise_pick_chronologicalOrder pivot.categoryCells
  obtain ⟨rearrangement, given⟩ := exists_rearrangement all
  refine ⟨⟨rearrangement, ?_⟩, ?_⟩
  · constructor
    case categories => exact moves_pick all given rfl
    case categoryCells => exact moves_pick all given dense.beside
    case cells =>
      refine List.forall₂_map_right_iff.mpr (List.forall₂_same.mpr fun row member => ?_)
      exact moves_pick all given (dense.columns row member)
    case series => rfl
    case columnTotals => exact moves_columnTotals dense all given
    case largestValue =>
      rw [largestValue_eq, largestValue_eq]
      exact ranked_lineRank.agree_of_perm (values_reorder_perm dense all)
    case ordered => exact sorted.imp momentLE_iff_forall.mp
    case stable =>
      intro first second before same
      obtain ⟨inside, here⟩ := List.getElem?_eq_some_iff.mp (given first)
      obtain ⟨inside', there⟩ := List.getElem?_eq_some_iff.mp (given second)
      have kept := List.pairwise_iff_getElem.mp (pairwise_chronologicalOrder pivot.categoryCells)
        first second inside inside' before
      rw [here, there] at kept
      exact kept.2 same
  · -- The cells are sorted by now, so their order is the one they have.
    have dense' : pivot.chronological.Dense := dense_reorder dense all
    have order : chronologicalOrder pivot.chronological.categoryCells =
        List.range pivot.chronological.categories.length := by
      rw [← dense'.beside]
      exact chronologicalOrder_eq_range sorted
    rw [chronological, order]
    exact reorder_range dense'

/-- A table whose categories are a date, a text and a date before the moment zero. -/
def unordered : Pivot Float :=
  { categories := ["2024-03-10", "n/a", "1960-01-01"]
    categoryCells := ["2024-03-10", "n/a", "1960-01-01"]
    series := ["value"]
    cells := [[some 1, none, some 2]] }

/-- It can be put in order. -/
theorem chronological_ordered_of_unordered :
    unordered.categoryCells.map moment? = [some 1710028800000, none, some (-315619200000)] ∧
      unordered.Dense ∧
      (∃ rearrangement : Equiv.Perm (Fin 3),
        OrderedBy rearrangement unordered unordered.chronological) ∧
      unordered.chronological.chronological = unordered.chronological := by
  have dense : unordered.Dense := ⟨rfl, rfl, by simp [unordered]⟩
  exact ⟨by decide +kernel, dense, chronological_ordered unordered dense⟩

end Pivot

end ChartCompiler
