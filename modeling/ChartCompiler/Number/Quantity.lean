import ChartCompiler.Number.Numeral

/-!
# Quantities

What a chart adds up, compares and interpolates is a *quantity*.  The programs over quantities are
written once, for every type that offers the operations below.  Charts are compiled with doubles;
the same definitions read over exact numbers say what the rounding of doubles only approximates.

The class has operations and no laws: the few that hold for doubles too are a class of their own.
-/

set_option autoImplicit false

namespace ChartCompiler

/-- The operations that charts perform on values. -/
class Quantity (α : Type) extends Add α, Sub α, Mul α, Div α, Neg α, LT α, LE α where
  /-- Comparison is decidable. -/
  decidableLT : (left right : α) → Decidable (left < right)
  /-- Comparison is decidable. -/
  decidableLE : (left right : α) → Decidable (left ≤ right)
  /-- The quantity a finite double stands for. -/
  ofFloat : Float → α
  /-- The quantity a count stands for. -/
  ofNat : Nat → α
  /-- The sum of no quantities. -/
  emptySum : α
  /-- Whether a quantity is neither infinite nor undefined. -/
  isFinite : α → Bool
  /-- The magnitude. -/
  abs : α → α
  /-- The greatest whole quantity that is not above. -/
  floor : α → α
  /-- The least whole quantity that is not below. -/
  ceil : α → α
  /-- The nearest whole quantity; a half goes away from zero. -/
  round : α → α
  /-- The whole part of a quantity that is not negative. -/
  toNat : α → Nat
  /-- The square root of a quantity that is not negative. -/
  sqrt : α → α
  /-- A total order that refines `≤`. -/
  totalLE : α → α → Bool
  /-- The number of units of the given decimal place that is nearest the magnitude, ties to even. -/
  nearestUnits : Nat → α → Nat

namespace Quantity

instance (α : Type) [Quantity α] (left right : α) : Decidable (left < right) :=
  decidableLT left right

instance (α : Type) [Quantity α] (left right : α) : Decidable (left ≤ right) :=
  decidableLE left right

variable {α : Type} [Quantity α]

/-- The quantity zero. -/
def zero : α := ofNat 0

/-- The sum from left to right. -/
def sum (values : List α) : α :=
  values.foldl (· + ·) emptySum

/-- The smaller of two quantities.  An undefined one loses, and of two equal ones the second is
taken. -/
def least (left right : α) : α :=
  if left < right ∨ ¬ right ≤ right then left else right

/-- The larger of two quantities.  An undefined one loses, and of two equal ones the second is
taken. -/
def greatest (left right : α) : α :=
  if right < left ∨ ¬ right ≤ right then left else right

/-- Moves a quantity to the nearer end of a range that it lies outside of. -/
def clamp (low high value : α) : α :=
  let raised := if value < low then low else value
  if high < raised then high else raised

/-- Sorts quantities ascending by the total order. -/
def ascending (values : List α) : List α :=
  values.mergeSort totalLE

/-- The numeral of a quantity's magnitude rounded to a number of decimal places. -/
def fixedText (places : Nat) (value : α) : String :=
  placesText places (nearestUnits places value)

end Quantity

/-! ## Doubles -/

/-- The place of a double in the total order: negative before positive, the negative zero before
the positive one, and undefined values last. -/
def floatRank (value : Float) : Nat :=
  let bits := value.toBits.toNat
  if bits < twoTo 63 then bits + twoTo 63 else twoTo 64 - 1 - bits

instance : Quantity Float where
  decidableLT := Float.decLt
  decidableLE := Float.decLe
  ofFloat value := value
  ofNat := Float.ofNat
  emptySum := -0.0
  isFinite := Float.isFinite
  abs := Float.abs
  floor := floorOf
  ceil := ceilOf
  round := roundOf
  toNat := wholePart
  sqrt := Float.sqrt
  totalLE left right := decide (floatRank left ≤ floatRank right)
  nearestUnits := nearestUnits

end ChartCompiler
