import Mathlib.Data.List.Perm.Basic
import Mathlib.Data.List.Sort
import Mathlib.Order.Bounds.Basic

/-!
# Stable sorting

A sort puts items in order and leaves those that it has no reason to move in the order they were in
(`pairwise_mergeSort_stable`).  When the order tells the items apart, the arrangement they start
from does not matter (`mergeSort_eq_of_perm`), and the place of an item is the number of smaller
ones (`idxOf_eq_countP`).

The least and the greatest of some items do not need a sort: a walk that keeps the better of two
items has them in the end (`isLeast_concat`, `isGreatest_concat`).
-/

set_option autoImplicit false

namespace ChartCompiler

section Arrangement

variable {β : Type} {le : β → β → Bool}
  (trans : ∀ first second third, le first second = true → le second third = true →
    le first third = true)
  (total : ∀ first second, (le first second || le second first) = true)

include trans total

/-- Items that a stable sort finds no reason to move stay in the order they were in. -/
theorem pairwise_mergeSort_stable {R : β → β → Prop} {items : List β} (sorted : items.Pairwise R) :
    (items.mergeSort le).Pairwise fun first second =>
      le first second = true ∧ (le second first = true → R first second) := by
  rw [← List.mergeSort_zipIdx, List.pairwise_map]
  have ordered := List.pairwise_mergeSort (List.zipIdxLE_trans trans) (List.zipIdxLE_total total)
    items.zipIdx
  have apart : (items.zipIdx.mergeSort (List.zipIdxLE le)).Pairwise fun first second =>
      first.2 ≠ second.2 := by
    apply List.pairwise_map.mp
    refine ((List.mergeSort_perm items.zipIdx _).map Prod.snd).nodup_iff.mpr ?_
    rw [List.zipIdx_map_snd]
    exact List.nodup_range'
  -- Items are compared together with their positions, which never tie.
  refine (ordered.and apart).imp_of_mem ?_
  rintro ⟨first, earlier⟩ ⟨second, later⟩ here there ⟨before, differ⟩
  rw [List.mem_mergeSort, List.mem_zipIdx_iff_getElem?] at here there
  obtain ⟨inside, same⟩ := List.getElem?_eq_some_iff.mp here
  obtain ⟨inside', same'⟩ := List.getElem?_eq_some_iff.mp there
  simp only [List.zipIdxLE, Bool.if_true_right, Bool.if_false_right, Bool.and_eq_true,
    Bool.or_eq_true, decide_eq_true_eq, Bool.not_eq_eq_eq_not, Bool.not_true] at before
  refine ⟨before.1, fun back => ?_⟩
  have kept := before.2.resolve_left (by simp [back])
  have related := List.pairwise_iff_getElem.mp sorted earlier later inside inside'
    (lt_of_le_of_ne kept differ)
  rwa [same, same'] at related

/-- Items that can be told apart by their order have one sorted arrangement. -/
theorem mergeSort_eq_of_perm {items items' : List β} (perm : items.Perm items')
    (apart : ∀ first ∈ items, ∀ second ∈ items, le first second = true → le second first = true →
      first = second) :
    items.mergeSort le = items'.mergeSort le := by
  refine List.Perm.eq_of_pairwise ?_ (List.pairwise_mergeSort trans total items)
    (List.pairwise_mergeSort trans total items')
    ((List.mergeSort_perm items le).trans (perm.trans (List.mergeSort_perm items' le).symm))
  intro first second member member' before after
  have here : first ∈ items := List.mem_mergeSort.mp member
  have there : second ∈ items := perm.mem_iff.mpr (List.mem_mergeSort.mp member')
  exact apart first here second there before after

end Arrangement

/-- In a list that is sorted by a key without ties, as many items come before an item as have
smaller keys. -/
theorem idxOf_eq_countP {β κ : Type} [DecidableEq β] [LinearOrder κ] {key : β → κ} {items : List β}
    (sorted : items.Pairwise fun first second => key first < key second) {item : β}
    (member : item ∈ items) :
    items.idxOf item = items.countP fun other => decide (key other < key item) := by
  induction sorted with
  | nil => cases member
  | cons least sorted step =>
      rename_i first rest
      rcases List.mem_cons.mp member with rfl | later
      · have none : rest.countP (fun other => decide (key other < key item)) = 0 :=
          List.countP_eq_zero.mpr fun other there => by simpa using (least other there).le
        rw [List.idxOf_cons_self, List.countP_cons, none]
        simp
      · have below := least item later
        have differ : first ≠ item := fun same => below.ne (congrArg key same)
        rw [List.idxOf_cons_ne _ differ, step later, List.countP_cons,
          if_pos (by simpa using below)]

/-! ## Least and greatest items -/

section Bounds

variable {κ : Type}

theorem setOf_mem_concat (items : List κ) (last : κ) :
    {item | item ∈ items ++ [last]} = insert last {item | item ∈ items} := by
  ext item
  simp [or_comm]

variable [LinearOrder κ] {items : List κ} {bound : κ}

theorem isLeast_concat (least : IsLeast {item | item ∈ items} bound) (last : κ) :
    IsLeast {item | item ∈ items ++ [last]} (min bound last) := by
  rw [setOf_mem_concat, min_comm]
  exact least.insert last

theorem isGreatest_concat (greatest : IsGreatest {item | item ∈ items} bound) (last : κ) :
    IsGreatest {item | item ∈ items ++ [last]} (max bound last) := by
  rw [setOf_mem_concat, max_comm]
  exact greatest.insert last

end Bounds

end ChartCompiler
