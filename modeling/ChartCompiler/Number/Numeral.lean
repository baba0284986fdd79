import ChartCompiler.Number.Shortest

/-!
# Numerals

The texts of numbers.  Whole numbers have their digits and a sign.  A double has its shortest
digits, laid out by a style: the style says which exponents of the first digit are written
positionally, whether a whole number keeps a final `.0`, and which of two equally near texts is
taken.  Two styles are in use, one for data and one for messages.  A third form writes a fixed
number of decimal places, rounded from the exact value with ties to the even digit.
-/

set_option autoImplicit false

namespace ChartCompiler

/-- The decimal text of a natural number. -/
def naturalText (number : Nat) : String :=
  String.ofList (digitsOf number)

/-- The decimal text of an integer, with a minus sign below zero. -/
def integerText (number : Int) : String :=
  if number < 0 then "-" ++ naturalText number.natAbs else naturalText number.natAbs

/-- A natural number written with at least `width` digits. -/
def paddedText (width number : Nat) : String :=
  let digits := digitsOf number
  String.ofList (List.replicate (width - digits.length) '0' ++ digits)

/-! ## Shortest digits -/

/-- How the shortest digits of a double are laid out. -/
structure NumeralStyle where
  /-- Whether a number whose first digit has this exponent is written positionally. -/
  positional : Int → Bool
  /-- What follows the digits of a whole number. -/
  wholeEnding : String
  /-- What stands for infinity. -/
  infinity : String
  /-- Where a double halfway between two texts of the least length goes. -/
  halfway : Halfway

namespace NumeralStyle

/-- Data keeps the point of a whole number and turns to powers of ten at `10 ^ 16` and below
`10 ^ -5`; a half goes to the even digit. -/
def data : NumeralStyle :=
  { positional := fun exponent => decide (-5 ≤ exponent ∧ exponent < 16)
    wholeEnding := ".0"
    infinity := "Infinity"
    halfway := .toEven }

/-- Messages always write positionally, and whole numbers without a point; a half goes away from
zero. -/
def plain : NumeralStyle :=
  { positional := fun _ => true
    wholeEnding := ""
    infinity := "inf"
    halfway := .away }

end NumeralStyle

/-- The digits before and after the point of a decimal. -/
def Decimal.split (number : Decimal) : List Char × List Char :=
  let digits := digitsOf number.coefficient
  if 0 ≤ number.exponent then
    (digits ++ List.replicate number.exponent.toNat '0', [])
  else
    let places := (-number.exponent).toNat
    let padded := List.replicate (places + 1 - digits.length) '0' ++ digits
    (padded.take (padded.length - places), padded.drop (padded.length - places))

/-- The text of a decimal without sign in a style. -/
def Decimal.text (style : NumeralStyle) (number : Decimal) : String :=
  if style.positional number.leading then
    match number.split with
    | (whole, []) => String.ofList whole ++ style.wholeEnding
    | (whole, fraction) => String.ofList whole ++ "." ++ String.ofList fraction
  else
    let sign := if number.leading < 0 then "-" else "+"
    let power := "e" ++ sign ++ naturalText number.leading.natAbs
    match digitsOf number.coefficient with
    | [] => power
    | [first] => String.ofList [first] ++ power
    | first :: rest => String.ofList [first] ++ "." ++ String.ofList rest ++ power

/-- The text of a double in a style. -/
def floatText (style : NumeralStyle) (value : Float) : String :=
  if value.isNaN then "NaN"
  else
    let sign := if (Binary.ofFloat value).negative then "-" else ""
    if value.isFinite then sign ++ (shortestDecimal style.halfway value).text style
    else sign ++ style.infinity

/-! ## Fixed places -/

/-- The numeral of `units` units of the last of `places` decimal places. -/
def placesText (places units : Nat) : String :=
  match (Decimal.mk units (-(places : Int))).split with
  | (whole, []) => String.ofList whole
  | (whole, fraction) => String.ofList whole ++ "." ++ String.ofList fraction

/-- The number of units of the last of `places` decimal places that is nearest the magnitude of a
finite double; a tie goes to the even digit. -/
def nearestUnits (places : Nat) (value : Float) : Nat :=
  let (numerator, denominator) := (Binary.ofFloat value).quotient
  roundTiesToEven (numerator * tenTo places) denominator

end ChartCompiler
