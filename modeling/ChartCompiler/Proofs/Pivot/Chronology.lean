import ChartCompiler.Pivot.Chronology
import ChartCompiler.Proofs.Pivot.Display
import ChartCompiler.Proofs.Time.Sampling
import Mathlib.Data.Prod.Lex

/-!
# Chronological order as a sort

Chronological order is computed as a list of positions.  Picking items by it sorts them by their
moments and keeps items of one moment in the order they had (`pick_chronologicalOrder`).  Items
with distinct moments have one chronological order, however they were arranged before
(`byMoment_eq_of_perm`).
-/

set_option autoImplicit false

namespace ChartCompiler

/-! ## Moments in order -/

/-- Moments are compared by whether they are missing, and then with any placeholder for the missing
ones. -/
theorem momentLE_iff_toLex_le (placeholder : Int) {first second : Option Int} :
    momentLE first second = true ↔
      toLex (first.isNone, first.getD placeholder) ≤
        toLex (second.isNone, second.getD placeholder) := by
  cases first <;> cases second <;> simp [momentLE, Prod.Lex.toLex_le_toLex]

theorem momentLE_trans (first second third : Option Int) (before : momentLE first second = true)
    (after : momentLE second third = true) : momentLE first third = true := by
  rw [momentLE_iff_toLex_le 0] at before after ⊢
  exact before.trans after

theorem momentLE_total (first second : Option Int) :
    (momentLE first second || momentLE second first) = true := by
  rw [Bool.or_eq_true, momentLE_iff_toLex_le 0, momentLE_iff_toLex_le 0]
  exact le_total _ _

theorem momentLE_antisymm {first second : Option Int} (before : momentLE first second = true)
    (after : momentLE second first = true) : first = second := by
  cases first with
  | none =>
      cases second with
      | none => rfl
      | some second => cases before
  | some first =>
      cases second with
      | none => cases after
      | some second =>
          exact congrArg some (Int.le_antisymm (of_decide_eq_true before) (of_decide_eq_true after))

/-! ## Items in order -/

section Items

variable {β : Type}

/-- Picking items by positions that are sorted by the items picks the sorted items. -/
theorem pick_mergeSort (le : Option β → Option β → Bool) (items : List β) :
    pick ((List.range items.length).mergeSort fun left right => le items[left]? items[right]?)
        items =
      items.mergeSort fun left right => le (some left) (some right) := by
  have all : (List.range items.length).map (items[·]?) = items.map some := by
    refine List.ext_getElem (by simp) fun position here here' => ?_
    rw [List.length_map] at here'
    rw [List.getElem_map, List.getElem_range, List.getElem_map, List.getElem?_eq_getElem here']
  have sorted : ((List.range items.length).mergeSort fun left right =>
      le items[left]? items[right]?).map (items[·]?) =
        (items.mergeSort fun left right => le (some left) (some right)).map some := by
    rw [List.map_mergeSort (s := le) fun _ _ _ _ => rfl, all,
      List.map_mergeSort (s := le) fun _ _ _ _ => rfl]
  have picked := congrArg (List.filterMap id) sorted
  rw [List.filterMap_map, List.filterMap_map] at picked
  exact picked.trans List.filterMap_some

/-- Items sorted by the moments of their cells. -/
def byMoment (cell : β → Json) (items : List β) : List β :=
  items.mergeSort fun left right => momentLE (moment? (cell left)) (moment? (cell right))

/-- **Picking by the chronological order of cells sorts by their moments.** -/
theorem pick_chronologicalOrder (cell : β → Json) (items : List β) :
    pick (chronologicalOrder (items.map cell)) items = byMoment cell items := by
  have moment (position : Nat) : (((items.map cell).map moment?)[position]?).join =
      items[position]?.bind fun item => moment? (cell item) := by
    rw [List.getElem?_map, List.getElem?_map]
    cases items[position]? <;> rfl
  rw [chronologicalOrder, List.length_map]
  simp only [moment]
  exact pick_mergeSort (fun left right => momentLE (left.bind fun item => moment? (cell item))
    (right.bind fun item => moment? (cell item))) items

/-- Items with distinct moments have one chronological order. -/
theorem byMoment_eq_of_perm {cell : β → Json} {items items' : List β} (perm : items.Perm items')
    (apart : ∀ first ∈ items, ∀ second ∈ items,
      moment? (cell first) = moment? (cell second) → first = second) :
    byMoment cell items = byMoment cell items' := by
  refine mergeSort_eq_of_perm ?_ ?_ perm ?_
  · intro first second third
    exact momentLE_trans _ _ _
  · intro first second
    exact momentLE_total _ _
  · intro first member second member' before after
    exact apart first member second member' (momentLE_antisymm before after)

end Items

end ChartCompiler
