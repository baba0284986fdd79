import ChartCompiler.Number.Binary

/-!
# The fewest digits that read back

Among the decimal numbers that round to a given double, the shortest text uses the fewest digits,
and among those the number nearest the double.  The reals that round to a double form an interval
around it, closed when the mantissa is even.  On the grid of numbers with a fixed count of digits
only the two neighbours of the double need to be tried: when any grid point lies in the interval,
one of those two does.  Counting the digits up from one therefore finds the shortest text, and
seventeen digits always suffice.  A double may lie exactly halfway between its two neighbours on
that grid; which of them is taken then is left to the caller.
-/

set_option autoImplicit false

namespace ChartCompiler

/-- The number `coefficient * 10 ^ exponent`. -/
structure Decimal where
  /-- The digits, read as one whole number. -/
  coefficient : Nat
  /-- The place of the last digit. -/
  exponent : Int
  deriving DecidableEq, Repr

/-- The decimal digits of a whole number. -/
def digitsOf (number : Nat) : List Char :=
  Nat.toDigits 10 number

/-- The exponent of the first decimal digit of a positive quotient. -/
def decimalExponent (numerator denominator : Nat) : Int :=
  let guess : Int := (digitsOf numerator).length - (digitsOf denominator).length
  let reached :=
    if 0 ≤ guess then decide (denominator * tenTo guess.toNat ≤ numerator)
    else decide (denominator ≤ numerator * tenTo (-guess).toNat)
  if reached then guess else guess - 1

namespace Decimal

/-- Drops the trailing zeros of the coefficient into the exponent, at most `fuel` of them. -/
def dropZeros : Nat → Decimal → Decimal
  | 0, number => number
  | fuel + 1, number =>
    if number.coefficient ≠ 0 ∧ number.coefficient % 10 = 0 then
      dropZeros fuel { coefficient := number.coefficient / 10, exponent := number.exponent + 1 }
    else
      number

/-- The exponent of the first digit. -/
def leading (number : Decimal) : Int :=
  number.exponent + (digitsOf number.coefficient).length - 1

end Decimal

/-- Which of its two neighbours on a grid stands for a number exactly halfway between them. -/
inductive Halfway where
  /-- The neighbour with the even coefficient. -/
  | toEven
  /-- The neighbour farther from zero. -/
  | away
  deriving DecidableEq, Repr

/-- Whether the upper neighbour is taken, given the coefficient of the lower one. -/
def Halfway.takesAbove (below : Nat) : Halfway → Bool
  | .toEven => below % 2 = 1
  | .away => true

/-- The reals that round to a positive double, in units of `2 ^ unit`: the double itself is
`center`, and the ends belong to the interval exactly when `closed` holds. -/
structure RoundingInterval where
  /-- The lower end. -/
  low : Nat
  /-- The double itself. -/
  center : Nat
  /-- The upper end. -/
  high : Nat
  /-- Whether the ends round to the double as well. -/
  closed : Bool
  /-- The unit is this power of two. -/
  unit : Int

namespace RoundingInterval

/-- The interval of a positive double.  Below a power of two the neighbouring double is only half
as far away. -/
def ofBinary (parts : Binary) : RoundingInterval :=
  let narrow := parts.mantissa = twoTo 52 ∧ -1074 < parts.exponent
  { low := 4 * parts.mantissa - (if narrow then 1 else 2)
    center := 4 * parts.mantissa
    high := 4 * parts.mantissa + 2
    closed := parts.mantissa % 2 = 0
    unit := parts.exponent - 2 }

/-- The nearest number on the grid of multiples of `10 ^ place` that rounds to the double, if any
does. -/
def gridPoint? (halfway : Halfway) (interval : RoundingInterval) (place : Int) :
    Option Decimal :=
  let scale := twoTo interval.unit.toNat * tenTo (-place).toNat
  let step := twoTo (-interval.unit).toNat * tenTo place.toNat
  let low := interval.low * scale
  let center := interval.center * scale
  let high := interval.high * scale
  let within := fun candidate : Nat =>
    if interval.closed then decide (low ≤ candidate * step ∧ candidate * step ≤ high)
    else decide (low < candidate * step ∧ candidate * step < high)
  let below := center / step
  let above := below + 1
  let towardAbove := 2 * (center % step)
  let preferAbove := step < towardAbove ∨ (towardAbove = step ∧ halfway.takesAbove below)
  if within below ∧ ¬ (within above ∧ preferAbove) ∧ below ≠ 0 then
    some { coefficient := below, exponent := place }
  else if within above then
    some { coefficient := above, exponent := place }
  else
    none

end RoundingInterval

/-- The shortest decimal that rounds to a finite double, without its sign; zero for zero. -/
def shortestDecimal (halfway : Halfway) (value : Float) : Decimal :=
  let parts := Binary.ofFloat value
  if parts.mantissa = 0 then
    { coefficient := 0, exponent := 0 }
  else
    let (numerator, denominator) := parts.quotient
    let leading := decimalExponent numerator denominator
    let interval := RoundingInterval.ofBinary parts
    let found := (List.range 17).findSome? fun (digits : Nat) =>
      interval.gridPoint? halfway (leading - (digits : Int))
    (found.getD { coefficient := numerator / denominator, exponent := 0 }).dropZeros 20

end ChartCompiler
