/-!
# Doubles as exact numbers

A finite double is a sign together with an exact magnitude `mantissa * 2 ^ exponent`.  Taking it
apart once lets every rule about digits and whole numbers be said in the arithmetic of natural
numbers: reading the parts, comparing with a power of ten, and rounding to a neighbouring whole
number are all exact here, and only the last step returns to a double.

Rounding to a whole number keeps the sign of its argument, so a small negative value rounds to
the negative zero.
-/

set_option autoImplicit false

namespace ChartCompiler

/-- A power of two. -/
abbrev twoTo (exponent : Nat) : Nat := Nat.pow 2 exponent

/-- A power of ten. -/
abbrev tenTo (exponent : Nat) : Nat := Nat.pow 10 exponent

/-- A finite double taken apart: its sign and the exact magnitude `mantissa * 2 ^ exponent`. -/
structure Binary where
  /-- Whether the sign bit is set. -/
  negative : Bool
  /-- The whole number of units. -/
  mantissa : Nat
  /-- The unit is this power of two. -/
  exponent : Int

namespace Binary

/-- Reads the sign, the fraction and the exponent field of a finite double. -/
def ofFloat (value : Float) : Binary :=
  let bits := value.toBits.toNat
  let field : Nat := bits / twoTo 52 % twoTo 11
  let fraction : Nat := bits % twoTo 52
  { negative := decide (twoTo 63 ≤ bits)
    mantissa := if field = 0 then fraction else fraction + twoTo 52
    exponent := if field = 0 then -1074 else (field : Int) - 1075 }

/-- The magnitude as a quotient of two natural numbers, the second one positive. -/
def quotient (parts : Binary) : Nat × Nat :=
  if 0 ≤ parts.exponent then
    (parts.mantissa * twoTo parts.exponent.toNat, 1)
  else
    (parts.mantissa, twoTo (-parts.exponent).toNat)

/-- The exact value. -/
def toRat (parts : Binary) : Rat :=
  let (numerator, denominator) := parts.quotient
  let magnitude := mkRat numerator denominator
  if parts.negative then -magnitude else magnitude

theorem quotient_snd_pos (parts : Binary) : 0 < parts.quotient.2 := by
  unfold quotient
  split
  · exact Nat.one_pos
  · exact Nat.pow_pos (by decide)

end Binary

/-! ## Whole numbers nearest a quotient -/

/-- The whole number nearest `numerator / denominator`; a tie goes to the even one. -/
def roundTiesToEven (numerator denominator : Nat) : Nat :=
  let below := numerator / denominator
  let rest := 2 * (numerator % denominator)
  if rest < denominator ∨ (rest = denominator ∧ below % 2 = 0) then below else below + 1

/-- The whole number nearest `numerator / denominator`; a tie goes up. -/
def roundTiesUp (numerator denominator : Nat) : Nat :=
  (2 * numerator + denominator) / (2 * denominator)

/-- The least whole number that is not below `numerator / denominator`. -/
def roundUp (numerator denominator : Nat) : Nat :=
  (numerator + (denominator - 1)) / denominator

/-! ## Whole doubles -/

/-- From this magnitude on every double is a whole number. -/
def wholeFrom : Float := 4503599627370496

/-- Replaces the magnitude of a double by the whole number a rule gives for it.  The rule is told
the sign, so that rounding down and rounding up can exchange their roles below zero.  The sign is
kept even when the result is zero. -/
def wholeBy (rule : Bool → Nat → Nat → Nat) (value : Float) : Float :=
  if value.isFinite && value.abs < wholeFrom then
    let parts := Binary.ofFloat value
    let (numerator, denominator) := parts.quotient
    let whole := Float.ofNat (rule parts.negative numerator denominator)
    if parts.negative then -whole else whole
  else
    value

/-- The greatest whole double not above the value. -/
def floorOf (value : Float) : Float :=
  wholeBy (fun negative numerator denominator =>
    if negative then roundUp numerator denominator else numerator / denominator) value

/-- The least whole double not below the value. -/
def ceilOf (value : Float) : Float :=
  wholeBy (fun negative numerator denominator =>
    if negative then numerator / denominator else roundUp numerator denominator) value

/-- The nearest whole double; a half goes away from zero. -/
def roundOf (value : Float) : Float :=
  wholeBy (fun _ numerator denominator => roundTiesUp numerator denominator) value

/-- The whole part of a value that is not negative; anything else counts as zero, and so does a
value that is not finite. -/
def wholePart (value : Float) : Nat :=
  if value.isFinite && 0 < value then
    let (numerator, denominator) := (Binary.ofFloat value).quotient
    numerator / denominator
  else
    0

end ChartCompiler
