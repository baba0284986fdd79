import ChartCompiler.Number.Quantity
import Mathlib.Algebra.BigOperators.Group.List.Basic
import Mathlib.Algebra.Order.Floor.Ring
import Mathlib.Data.Rat.Floor
import Mathlib.Data.Rat.Sqrt

/-!
# Sums and exact quantities

Charts add up values in the order of the rows, starting from zero (`Quantity.total`).  Where values
can be missing, the sum is missing exactly when all of them are (`Quantity.totalOfPresent`).

Programs over quantities can be read over the numbers of an ordered field (`Quantity.exactly`),
where nothing is rounded: a double stands for the number that it is, and sums do not depend on the
order of their terms.  Whatever is said for an arbitrary square root holds for that of the real
numbers.  Over the rational numbers the only operation that is not exact is the square root of a
number that is no square.
-/

set_option autoImplicit false

namespace ChartCompiler.Quantity

section Sums

variable {α : Type} [Quantity α]

/-- The sum of some quantities, added from left to right to zero. -/
def total (values : List α) : α :=
  values.foldl (· + ·) zero

/-- The sum of the quantities that are present, if there are any. -/
def totalOfPresent (values : List (Option α)) : Option α :=
  if values.all Option.isNone then none else some (total (values.filterMap id))

@[simp] theorem total_append_singleton (values : List α) (value : α) :
    total (values ++ [value]) = total values + value := by
  simp only [total, List.foldl_append, List.foldl_cons, List.foldl_nil]

theorem totalOfPresent_eq_none_iff {values : List (Option α)} :
    totalOfPresent values = none ↔ ∀ value ∈ values, value = none := by
  simp [totalOfPresent]

/-- A sum is missing when no value is left after the missing ones are removed. -/
theorem totalOfPresent_eq (values : List (Option α)) :
    totalOfPresent values =
      if values.filterMap id = [] then none else some (total (values.filterMap id)) := by
  have absent : values.all Option.isNone = true ↔ values.filterMap id = [] := by simp
  rw [totalOfPresent]
  exact if_congr absent rfl rfl

@[simp] theorem totalOfPresent_append_none (values : List (Option α)) :
    totalOfPresent (values ++ [none]) = totalOfPresent values := by
  simp [totalOfPresent]

theorem totalOfPresent_append_some (values : List (Option α)) (value : α) :
    totalOfPresent (values ++ [some value]) =
      some ((totalOfPresent values).getD zero + value) := by
  have present : (values ++ [some value]).filterMap id = values.filterMap id ++ [value] := by
    rw [List.filterMap_append]
    rfl
  rw [totalOfPresent_eq, totalOfPresent_eq, present, if_neg (List.concat_ne_nil _ _),
    total_append_singleton]
  by_cases absent : values.filterMap id = []
  · rw [if_pos absent, absent]
    rfl
  · rw [if_neg absent]
    rfl

end Sums

/-! ## Exact quantities -/

section Fields

variable {K : Type} [Field K] [LinearOrder K] [FloorRing K]

/-- The exact quantities of an ordered field, with some function for the square root. -/
@[reducible] def exactly (root : K → K) : Quantity K where
  decidableLT := inferInstance
  decidableLE := inferInstance
  ofFloat value := ((Binary.ofFloat value).toRat : K)
  ofNat count := count
  emptySum := 0
  isFinite _ := true
  abs value := |value|
  floor value := ⌊value⌋
  ceil value := ⌈value⌉
  round value := if 0 ≤ value then ⌊value + 1 / 2⌋ else ⌈value - 1 / 2⌉
  toNat value := ⌊value⌋.toNat
  sqrt := root
  totalLE left right := decide (left ≤ right)
  nearestUnits places value :=
    let units := |value| * tenTo places
    let below := ⌊units⌋.toNat
    if Int.fract units < 1 / 2 then below
    else if 1 / 2 < Int.fract units then below + 1
    else below + below % 2

variable (root : K → K)

theorem zero_exactly : (exactly root).zero = 0 :=
  Nat.cast_zero

theorem isFinite_exactly (value : K) : (exactly root).isFinite value = true := rfl

theorem sqrt_exactly (value : K) : (exactly root).sqrt value = root value := rfl

theorem least_exactly (left right : K) : (exactly root).least left right = min left right := by
  unfold least
  rw [min_def]
  rcases lt_trichotomy left right with less | rfl | greater
  · rw [if_pos (.inl less), if_pos less.le]
  · rw [if_pos le_rfl, ite_self]
  · rw [if_neg (not_le.mpr greater), if_neg]
    rintro (less | undefined)
    · exact absurd less greater.not_gt
    · exact undefined le_rfl

theorem greatest_exactly (left right : K) :
    (exactly root).greatest left right = max left right := by
  unfold greatest
  rw [max_def]
  rcases lt_trichotomy left right with less | rfl | greater
  · rw [if_pos less.le, if_neg]
    rintro (greater | undefined)
    · exact absurd less greater.not_gt
    · exact undefined le_rfl
  · rw [if_pos le_rfl, ite_self]
  · rw [if_pos (.inl greater), if_neg (not_le.mpr greater)]

theorem clamp_exactly (low high value : K) :
    (exactly root).clamp low high value = min high (max value low) := by
  rw [min_def_lt, max_def_lt]
  rfl

end Fields

/-! ## Rational numbers -/

instance : Quantity ℚ where
  decidableLT := inferInstance
  decidableLE := inferInstance
  ofFloat value := (Binary.ofFloat value).toRat
  ofNat count := count
  emptySum := 0
  isFinite _ := true
  abs value := |value|
  floor value := ⌊value⌋
  ceil value := ⌈value⌉
  round value := if 0 ≤ value then ⌊value + 1 / 2⌋ else ⌈value - 1 / 2⌉
  toNat value := ⌊value⌋.toNat
  sqrt := Rat.sqrt
  totalLE left right := decide (left ≤ right)
  nearestUnits places value := roundTiesToEven (value.num.natAbs * tenTo places) value.den

theorem zero_rat : (zero : ℚ) = 0 :=
  Nat.cast_zero

theorem total_rat (values : List ℚ) : total values = values.sum := by
  rw [total, zero_rat]
  exact List.sum_eq_foldl.symm

theorem sum_rat (values : List ℚ) : sum values = values.sum :=
  List.sum_eq_foldl.symm

theorem least_rat (left right : ℚ) : least left right = min left right :=
  least_exactly Rat.sqrt left right

theorem greatest_rat (left right : ℚ) : greatest left right = max left right :=
  greatest_exactly Rat.sqrt left right

theorem clamp_rat (low high value : ℚ) : clamp low high value = min high (max value low) :=
  clamp_exactly Rat.sqrt low high value

theorem totalOfPresent_rat_perm {values values' : List (Option ℚ)} (perm : values.Perm values') :
    totalOfPresent values = totalOfPresent values' := by
  rw [totalOfPresent, totalOfPresent, perm.all_eq, total_rat, total_rat,
    (perm.filterMap id).sum_eq]

end ChartCompiler.Quantity
