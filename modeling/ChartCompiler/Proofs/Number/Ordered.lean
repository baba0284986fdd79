import ChartCompiler.Proofs.Number.Addition
import ChartCompiler.Proofs.Number.Exact

/-!
# Quantities in order

Sorted values and sums of positive values are the same for doubles as for exact quantities, as far
as a few laws go (`Quantity.Ordered`).  What is shown from these laws holds for the doubles that
charts are made of, with all their rounding, and for rational numbers as well.
-/

set_option autoImplicit false

namespace ChartCompiler.Quantity

/-- Quantities that can be sorted, and of which positive ones have positive sums. -/
class Ordered (α : Type) [Quantity α] : Prop where
  totalLE_trans : ∀ first second third : α, totalLE first second = true →
    totalLE second third = true → totalLE first third = true
  totalLE_total : ∀ first second : α, (totalLE first second || totalLE second first) = true
  /-- Among quantities that are defined, the total order agrees with the comparison. -/
  le_of_totalLE : ∀ left right : α, left ≤ left → right ≤ right → totalLE left right = true →
    left ≤ right
  /-- The total order puts smaller positive quantities first. -/
  lt_or_eq_of_totalLE : ∀ left right : α, zero < left → zero < right →
    totalLE left right = true → left < right ∨ left = right
  /-- What is less is defined. -/
  le_of_lt : ∀ left right : α, left < right → left ≤ right
  /-- What is greater is defined. -/
  le_self_of_lt : ∀ left right : α, left < right → right ≤ right
  /-- What is made of a defined double is defined. -/
  le_self_ofFloat : ∀ value : Float, value ≤ value → (ofFloat value : α) ≤ ofFloat value
  zero_le_emptySum : (zero : α) ≤ emptySum
  zero_lt_add : ∀ left right : α, zero ≤ left → zero < right → zero < left + right

section Laws

variable {α : Type} [Quantity α] [Ordered α]

theorem totalLE_self (value : α) : totalLE value value = true := by
  simpa using Ordered.totalLE_total value value

/-- Positive quantities have a positive sum. -/
theorem zero_lt_sum {values : List α} (some : values ≠ [])
    (positive : ∀ value ∈ values, zero < value) : zero < sum values := by
  induction values using List.reverseRecOn with
  | nil => exact absurd rfl some
  | append_singleton values value ih =>
      have last := positive value (by simp)
      rw [sum, List.foldl_append, List.foldl_cons, List.foldl_nil]
      apply Ordered.zero_lt_add _ _ _ last
      by_cases none : values = []
      · rw [none]
        exact Ordered.zero_le_emptySum
      · apply Ordered.le_of_lt
        exact ih none fun other member => positive other (List.mem_append_left _ member)

/-- Sorting puts quantities that are defined in ascending order. -/
theorem pairwise_ascending {values : List α} (defined : ∀ value ∈ values, value ≤ value) :
    (ascending values).Pairwise (· ≤ ·) := by
  have sorted := List.pairwise_mergeSort Ordered.totalLE_trans Ordered.totalLE_total values
  refine sorted.imp_of_mem fun {left right} here there before => ?_
  exact Ordered.le_of_totalLE left right (defined left (List.mem_mergeSort.mp here))
    (defined right (List.mem_mergeSort.mp there)) before

end Laws

/-! ## Doubles -/

instance : Ordered Float where
  totalLE_trans first second third before after := by
    have ranks : floatRank first ≤ floatRank second := of_decide_eq_true before
    have ranks' : floatRank second ≤ floatRank third := of_decide_eq_true after
    exact decide_eq_true (ranks.trans ranks')
  totalLE_total first second := by
    have either := le_total (floatRank first) (floatRank second)
    exact (Bool.or_eq_true _ _).mpr (either.imp decide_eq_true decide_eq_true)
  le_of_totalLE _ _ := le_of_totalLE
  lt_or_eq_of_totalLE _ _ := lt_or_eq_of_totalLE
  le_of_lt left right less := by
    obtain ⟨defined, less⟩ := (ranked_lineRank.lt_iff left right).mp less
    exact (ranked_lineRank.le_iff left right).mpr ⟨defined, less.le⟩
  le_self_of_lt left right less := by
    obtain ⟨-, less⟩ := (ranked_lineRank.lt_iff left right).mp less
    exact (ranked_lineRank.le_iff right right).mpr ⟨less.ne_bot, le_rfl⟩
  le_self_ofFloat _ defined := defined
  zero_le_emptySum := (le_iff_compare _ _).mpr rfl
  zero_lt_add _ _ := zero_lt_add

/-! ## Rational numbers -/

instance : Ordered ℚ where
  totalLE_trans first second third before after :=
    decide_eq_true ((of_decide_eq_true before).trans (of_decide_eq_true after))
  totalLE_total first second :=
    (Bool.or_eq_true _ _).mpr ((le_total first second).imp decide_eq_true decide_eq_true)
  le_of_totalLE _ _ _ _ before := of_decide_eq_true before
  lt_or_eq_of_totalLE _ _ _ _ before := (of_decide_eq_true before).lt_or_eq
  le_of_lt _ _ less := less.le
  le_self_of_lt _ _ _ := le_rfl
  le_self_ofFloat _ _ := le_rfl
  zero_le_emptySum := zero_rat.le
  zero_lt_add left right nonnegative positive := by
    rw [zero_rat] at nonnegative positive ⊢
    exact add_pos_of_nonneg_of_pos nonnegative positive

end ChartCompiler.Quantity
