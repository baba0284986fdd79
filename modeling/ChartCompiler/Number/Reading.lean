import ChartCompiler.Number.Binary

/-!
# Reading decimal numerals

A numeral is an optional sign, digits with at most one point among or around them, and an optional
power of ten.  At least one digit must stand beside the point.  The double read is the nearest one;
a numeral beyond the greatest double reads as infinity.
-/

set_option autoImplicit false

namespace ChartCompiler

/-- Whether a character is one of the ten decimal digits. -/
def isDigit (character : Char) : Bool :=
  decide ('0' ≤ character ∧ character ≤ '9')

/-- The number a sequence of decimal digits stands for. -/
def digitsValue (digits : List Char) : Nat :=
  digits.foldl (fun value digit => value * 10 + (digit.toNat - 48)) 0

/-- Takes an optional sign off; the flag says whether it was a minus. -/
def takeSign : List Char → Bool × List Char
  | '-' :: rest => (true, rest)
  | '+' :: rest => (false, rest)
  | text => (false, text)

/-- The double nearest `coefficient * 10 ^ exponent`.  Beyond the range of doubles the answer needs
no power to be computed. -/
def scaledFloat (coefficient : Nat) (exponent : Int) : Float :=
  let leading := exponent + (Nat.toDigits 10 coefficient).length
  if coefficient = 0 then 0
  else if 310 < leading then 1 / 0
  else if leading < -330 then 0
  else Float.ofScientific coefficient (decide (exponent < 0)) exponent.natAbs

/-- A numeral taken apart. -/
structure Numeral where
  /-- Whether it starts with a minus. -/
  negative : Bool
  /-- The digits before and after the point. -/
  coefficient : Nat
  /-- The power of ten that the coefficient is multiplied with. -/
  exponent : Int

namespace Numeral

/-- Reads the part of a numeral that follows its digits: nothing, or a power of ten. -/
def readPower : List Char → Option Int
  | [] => some 0
  | mark :: rest =>
    if mark = 'e' ∨ mark = 'E' then
      let (negative, digits) := takeSign rest
      if digits.isEmpty || !digits.all isDigit then none
      else some (if negative then -(digitsValue digits : Int) else digitsValue digits)
    else
      none

/-- Reads a whole text as a numeral. -/
def read (text : List Char) : Option Numeral :=
  let (negative, body) := takeSign text
  let whole := body.takeWhile isDigit
  let afterWhole := body.dropWhile isDigit
  let (fraction, afterFraction) :=
    match afterWhole with
    | '.' :: rest => (rest.takeWhile isDigit, rest.dropWhile isDigit)
    | rest => ([], rest)
  if whole.isEmpty && fraction.isEmpty then none
  else
    (readPower afterFraction).map fun power =>
      { negative
        coefficient := digitsValue (whole ++ fraction)
        exponent := power - fraction.length }

/-- The nearest double. -/
def toFloat (numeral : Numeral) : Float :=
  let magnitude := scaledFloat numeral.coefficient numeral.exponent
  if numeral.negative then -magnitude else magnitude

end Numeral

/-- Reads a text as a decimal number, which may be infinite. -/
def readFloat (text : List Char) : Option Float :=
  (Numeral.read text).map Numeral.toFloat

end ChartCompiler
