import ChartCompiler.Number.Binary

/-!
# Decimal logarithms

The logarithm of a positive double to base ten, as a double.  The argument is a significand times a
power of two.  The natural logarithm of the significand `s` is twice the sum
`u + u ^ 3 / 3 + u ^ 5 / 5 + …` with `u = (s - 1) / (s + 1)`, taken in fixed point and rounded to a
double once.  Doubles put the rest together: the natural logarithm is scaled to base ten, and the
logarithm of the power of two is added in a low and a high part.  The high part of the logarithm of
two has so few digits that its product with an exponent is exact.

The significand is at least one for an argument of at least one, and below one for a smaller
argument.  The parts of the sum then never differ in sign, so nothing cancels.
-/

set_option autoImplicit false

namespace ChartCompiler

/-- The number of binary places of a fixed-point number. -/
def fixedPlaces : Nat := 160

/-- The double nearest twice a fixed-point number.  A binary fraction is also a decimal one, with
as many decimal places as it has binary places. -/
def twiceFixed (number : Nat) : Float :=
  let places := fixedPlaces - 1
  Float.ofScientific (number * Nat.pow 5 places) true places

/-- The sum of the next terms of `u + u ^ 3 / 3 + u ^ 5 / 5 + …` in fixed point.  The next term has
the exponent `odd` and the power `power` of `u`. -/
def oddPowerSum (square : Nat) : (terms odd power : Nat) → Nat
  | 0, _, _ => 0
  | terms + 1, odd, power =>
    power / odd + oddPowerSum square terms (odd + 2) (power * square / twoTo fixedPlaces)

/-- The natural logarithm of a quotient between one half and two.  There `u` is at most one third,
so fifty terms reach beyond the last place. -/
def naturalLogarithm (numerator denominator : Nat) : Float :=
  let distance := if numerator < denominator then denominator - numerator
    else numerator - denominator
  let u := distance * twoTo fixedPlaces / (numerator + denominator)
  let square := u * u / twoTo fixedPlaces
  let magnitude := twiceFixed (oddPowerSum square 50 1 u)
  if numerator < denominator then -magnitude else magnitude

/-- The logarithm of `e` to base ten. -/
def logOfE : Float := 0.4342944819032518

/-- The leading digits of the logarithm of two to base ten. -/
def logOfTwoHigh : Float := 0.30102999566361177

/-- What the leading digits leave of the logarithm of two to base ten. -/
def logOfTwoLow : Float := 3.694239077158931e-13

/-- The logarithm of a positive double to base ten. -/
def decimalLogarithm (value : Float) : Float :=
  let parts := Binary.ofFloat value
  let top := Nat.log2 parts.mantissa
  let leading := parts.exponent + top
  let shift : Nat := if leading < 0 then 1 else 0
  let exponent := Float.ofInt (leading + shift)
  let significand := naturalLogarithm parts.mantissa (twoTo (top + shift))
  (exponent * logOfTwoLow + logOfE * significand) + exponent * logOfTwoHigh

end ChartCompiler
