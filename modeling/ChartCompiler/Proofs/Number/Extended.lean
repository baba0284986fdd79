import ChartCompiler.Proofs.Number.Exact
import ChartCompiler.Statistics.Extent

/-!
# Quantities with infinities

Doubles are not all numbers: some are infinite, and one kind is undefined.  `Extended α` adds these
values to the quantities of `α`, with the rules that doubles have for them, so that a program can be
read over exact numbers and still meet values that are none.

Sums, differences and products of numbers are those of `α`, and so is whatever is made of them: the
extent of the finite values, their order, and what lies between two of their ranks
(`Extended.extentOf_eq`, `Extended.sortedFinite_eq`, `Extended.atRank_map_number`).
-/

set_option autoImplicit false

namespace ChartCompiler

/-- A quantity, or a value that is not one. -/
inductive Extended (α : Type) where
  /-- A quantity. -/
  | number (value : α)
  /-- What lies beyond all quantities, below or above. -/
  | infinity (negative : Bool)
  /-- What is no value at all. -/
  | undefined

namespace Extended

variable {α : Type} [Quantity α]

/-! ## Arithmetic -/

/-- Whether a value is zero. -/
def isZero : Extended α → Bool
  | number value => decide (value ≤ Quantity.zero) && decide (Quantity.zero ≤ value)
  | _ => false

/-- Whether a value is below zero. -/
def isNegative : Extended α → Bool
  | number value => decide (value < Quantity.zero)
  | infinity negative => negative
  | undefined => false

/-- The opposite value. -/
def neg : Extended α → Extended α
  | number value => number (-value)
  | infinity negative => infinity !negative
  | undefined => undefined

/-- The sum.  Opposite infinities have none. -/
def add : Extended α → Extended α → Extended α
  | number left, number right => number (left + right)
  | infinity negative, number _ => infinity negative
  | number _, infinity negative => infinity negative
  | infinity negative, infinity other => if negative = other then infinity negative else undefined
  | _, _ => undefined

/-- The difference. -/
def sub : Extended α → Extended α → Extended α
  | number left, number right => number (left - right)
  | left, right => left.add right.neg

/-- The product.  Zero and an infinity have none. -/
def mul : Extended α → Extended α → Extended α
  | number left, number right => number (left * right)
  | undefined, _ => undefined
  | _, undefined => undefined
  | left, right =>
    if left.isZero || right.isZero then undefined
    else infinity (left.isNegative ^^ right.isNegative)

/-- The quotient.  A number other than zero by zero is infinite; zero by zero is undefined, and so
is an infinity by an infinity. -/
def div : Extended α → Extended α → Extended α
  | number left, number right =>
    if (number right).isZero then
      if (number left).isZero then undefined else infinity (number left).isNegative
    else
      number (left / right)
  | number _, infinity _ => number Quantity.zero
  | infinity negative, number right => infinity (negative ^^ (number right).isNegative)
  | _, _ => undefined

/-- Applies an operation to a quantity and leaves other values alone. -/
def map (operation : α → α) : Extended α → Extended α
  | number value => number (operation value)
  | other => other

/-- The quantity that a value is, if it is one. -/
def number? : Extended α → Option α
  | number value => some value
  | _ => none

/-! ## Comparison -/

/-- Whether a value is less than another.  What is undefined is not comparable. -/
def lt : Extended α → Extended α → Prop
  | number left, number right => left < right
  | infinity negative, number _ => negative = true
  | number _, infinity negative => negative = false
  | infinity negative, infinity other => negative = true ∧ other = false
  | _, _ => False

/-- Whether a value is at most another. -/
def le : Extended α → Extended α → Prop
  | number left, number right => left ≤ right
  | infinity negative, number _ => negative = true
  | number _, infinity negative => negative = false
  | infinity negative, infinity other => negative = true ∨ other = false
  | _, _ => False

/-- Comparison is decidable. -/
def decideLT : (left right : Extended α) → Decidable (lt left right)
  | number left, number right => inferInstanceAs (Decidable (left < right))
  | infinity negative, number _ => inferInstanceAs (Decidable (negative = true))
  | number _, infinity negative => inferInstanceAs (Decidable (negative = false))
  | infinity negative, infinity other =>
    inferInstanceAs (Decidable (negative = true ∧ other = false))
  | undefined, number _ => .isFalse id
  | undefined, infinity _ => .isFalse id
  | number _, undefined => .isFalse id
  | infinity _, undefined => .isFalse id
  | undefined, undefined => .isFalse id

/-- Comparison is decidable. -/
def decideLE : (left right : Extended α) → Decidable (le left right)
  | number left, number right => inferInstanceAs (Decidable (left ≤ right))
  | infinity negative, number _ => inferInstanceAs (Decidable (negative = true))
  | number _, infinity negative => inferInstanceAs (Decidable (negative = false))
  | infinity negative, infinity other =>
    inferInstanceAs (Decidable (negative = true ∨ other = false))
  | undefined, number _ => .isFalse id
  | undefined, infinity _ => .isFalse id
  | number _, undefined => .isFalse id
  | infinity _, undefined => .isFalse id
  | undefined, undefined => .isFalse id

/-- The total order: what is undefined comes last. -/
def totalLE : Extended α → Extended α → Bool
  | number left, number right => Quantity.totalLE left right
  | _, undefined => true
  | undefined, _ => false
  | _, infinity false => true
  | infinity negative, _ => negative
  | number _, infinity true => false

instance : Quantity (Extended α) where
  add := add
  sub := sub
  mul := mul
  div := div
  neg := neg
  lt := lt
  le := le
  decidableLT := decideLT
  decidableLE := decideLE
  ofFloat value :=
    if value.isFinite then number (Quantity.ofFloat value)
    else if value ≤ value then infinity (decide (value < 0)) else undefined
  ofNat count := number (Quantity.ofNat count)
  emptySum := number Quantity.emptySum
  isFinite value := (value.number?.map Quantity.isFinite).getD false
  abs
    | number value => number (Quantity.abs value)
    | infinity _ => infinity false
    | undefined => undefined
  floor := map Quantity.floor
  ceil := map Quantity.ceil
  round := map Quantity.round
  toNat value := (value.number?.map Quantity.toNat).getD 0
  sqrt value := if value.isNegative then undefined else value.map Quantity.sqrt
  totalLE := totalLE
  nearestUnits places value := (value.number?.map (Quantity.nearestUnits places)).getD 0

/-! ## Numbers stay numbers -/

section Numbers

variable (left right value low high : α)

@[simp] theorem number_add : (number left + number right : Extended α) = number (left + right) :=
  rfl

@[simp] theorem number_sub : (number left - number right : Extended α) = number (left - right) :=
  rfl

@[simp] theorem number_mul : (number left * number right : Extended α) = number (left * right) :=
  rfl

@[simp] theorem isFinite_number :
    Quantity.isFinite (number value) = Quantity.isFinite value := rfl

theorem ofNat_eq (count : Nat) :
    (Quantity.ofNat count : Extended α) = number (Quantity.ofNat count) := rfl

theorem zero_eq : (Quantity.zero : Extended α) = number Quantity.zero := rfl

@[simp] theorem abs_number : Quantity.abs (number value) = number (Quantity.abs value) := rfl

@[simp] theorem floor_number : Quantity.floor (number value) = number (Quantity.floor value) := rfl

@[simp] theorem ceil_number : Quantity.ceil (number value) = number (Quantity.ceil value) := rfl

@[simp] theorem toNat_number : Quantity.toNat (number value) = Quantity.toNat value := rfl

omit [Quantity α] in
theorem ite_number {condition condition' : Prop} [Decidable condition] [Decidable condition']
    (same : condition ↔ condition') :
    (if condition then number left else number right) =
      number (if condition' then left else right) := by
  simp only [same]
  split <;> rfl

@[simp] theorem least_number :
    Quantity.least (number left) (number right) = number (Quantity.least left right) :=
  ite_number _ _ Iff.rfl

@[simp] theorem greatest_number :
    Quantity.greatest (number left) (number right) = number (Quantity.greatest left right) :=
  ite_number _ _ Iff.rfl

theorem clamp_number :
    Quantity.clamp (number low) (number high) (number value) =
      number (Quantity.clamp low high value) := by
  have raised : (if number value < number low then number low else number value) =
      number (if value < low then low else value) := ite_number _ _ Iff.rfl
  rw [Quantity.clamp, raised]
  exact ite_number _ _ Iff.rfl

end Numbers

/-! ## Lists of values -/

/-- The quantities among some values. -/
def numbers (values : List (Extended α)) : List α :=
  values.filterMap number?

omit [Quantity α] in
theorem mem_numbers {values : List (Extended α)} {value : α} :
    value ∈ numbers values ↔ number value ∈ values := by
  rw [numbers, List.mem_filterMap]
  constructor
  · rintro ⟨entry, member, same⟩
    cases entry with
    | number other => exact Option.some.inj same ▸ member
    | infinity negative => cases same
    | undefined => cases same
  · exact fun member => ⟨_, member, rfl⟩

/-- The finite values are the finite quantities. -/
theorem filter_isFinite (values : List (Extended α)) :
    values.filter Quantity.isFinite = ((numbers values).filter Quantity.isFinite).map number := by
  induction values with
  | nil => rfl
  | cons value rest ih =>
      cases value with
      | number value =>
          have finite : Quantity.isFinite (number value) = Quantity.isFinite value := rfl
          rw [List.filter_cons, finite, ih]
          show _ = ((value :: numbers rest).filter Quantity.isFinite).map number
          rw [List.filter_cons]
          split <;> rfl
      | infinity negative => exact ih
      | undefined => exact ih

theorem sortedFinite_eq (values : List (Extended α)) :
    sortedFinite values = (sortedFinite (numbers values)).map number := by
  rw [sortedFinite, sortedFinite, filter_isFinite, Quantity.ascending, Quantity.ascending]
  exact (List.map_mergeSort (f := number) fun _ _ _ _ => rfl).symm

/-- The extent of the quantities between two values. -/
def extentOf (extent : Extent α) : Extent (Extended α) :=
  { min := number extent.min, max := number extent.max }

theorem step_number (extent : Option (Extent α)) (value : α) :
    Extent.step (extent.map extentOf) (number value) = (Extent.step extent value).map extentOf := by
  unfold Extent.step
  rw [isFinite_number]
  split
  · cases extent with
    | none => rfl
    | some extent =>
        simp only [Option.map_some, Extent.widen, extentOf, least_number, greatest_number]
  · rfl

/-- Only quantities widen an extent. -/
theorem foldl_step (extent : Option (Extent α)) (values : List (Extended α)) :
    values.foldl Extent.step (extent.map extentOf) =
      ((numbers values).foldl Extent.step extent).map extentOf := by
  induction values generalizing extent with
  | nil => rfl
  | cons value rest ih =>
      rw [List.foldl_cons]
      cases value with
      | number value =>
          rw [step_number, ih]
          rfl
      | infinity negative => exact ih extent
      | undefined => exact ih extent

theorem extentOf_eq (values : List (Extended α)) :
    Extent.of values = (Extent.of (numbers values)).map extentOf :=
  foldl_step none values

theorem atRank_map_number (values : List α) (rank : α) :
    atRank (values.map number) (number rank) = (atRank values rank).map number := by
  unfold atRank
  simp only [floor_number, ceil_number, toNat_number, List.getElem?_map, List.getLast?_map]
  cases values[Quantity.toNat (Quantity.floor rank)]? with
  | none => rfl
  | some low =>
      cases values[Quantity.toNat (Quantity.ceil rank)]? with
      | none => rfl
      | some high => rfl

/-! ## Rational numbers -/

section Rational

variable {first second : Extended ℚ}

theorem number_div {left right : ℚ} (nonzero : right ≠ 0) :
    (number left / number right : Extended ℚ) = number (left / right) := by
  have apart : (number right).isZero = false := by
    rw [isZero, Quantity.zero_rat, ← Bool.decide_and]
    exact decide_eq_false fun zero => nonzero (le_antisymm zero.1 zero.2)
  show div (number left) (number right) = _
  rw [div, apart]
  rfl

/-- What can be compared at all is defined. -/
theorem le_self_of_le (ordered : first ≤ second) : first ≤ first ∧ second ≤ second := by
  have defined {value : Extended ℚ} (notUndefined : value ≠ undefined) : value ≤ value := by
    cases value with
    | number value => exact le_refl value
    | infinity negative => cases negative <;> simp [LE.le, le]
    | undefined => exact absurd rfl notUndefined
  constructor
  · apply defined
    rintro rfl
    cases second <;> exact ordered
  · apply defined
    rintro rfl
    cases first <;> exact ordered

theorem le_of_less (less : first < second) : first ≤ second := by
  cases first with
  | number value =>
      cases second with
      | number value' => exact le_of_lt (show value < value' from less)
      | infinity negative => exact less
      | undefined => exact less
  | infinity negative =>
      cases second with
      | number value => exact less
      | infinity negative' => exact .inl (show negative = true ∧ _ from less).1
      | undefined => exact less
  | undefined => cases second <;> exact less

/-- Nothing that is defined lies beyond the infinities. -/
theorem infinity_le (defined : first ≤ first) :
    infinity true ≤ first ∧ first ≤ infinity false := by
  cases first with
  | number value => exact ⟨rfl, rfl⟩
  | infinity negative => exact ⟨.inl rfl, .inr rfl⟩
  | undefined => exact defined.elim

end Rational

end Extended

end ChartCompiler
