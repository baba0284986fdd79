import ChartCompiler.Config.Basic
import ChartCompiler.Number.Quantity
import ChartCompiler.Text.Blank

/-!
# Labels of values

A value has two labels.  On an axis it is short: from a threshold on it is written in thousands,
millions or billions with at most one decimal.  In a tooltip it is exact: grouped digits with a
fixed number of decimals whose trailing zeros are dropped.  Both carry the unit of the configured
format, and the sign stands in front of it.

The scale of a short label is chosen after rounding, so 999950 reads `1.0M` and not `1000K`.
-/

set_option autoImplicit false

namespace ChartCompiler

/-- The unit that values are shown with. -/
inductive ValueUnit where
  /-- No unit. -/
  | number
  /-- Dollars, in front. -/
  | currency
  /-- A token, behind. -/
  | xDai
  /-- Percent, behind. -/
  | percentage
  deriving DecidableEq, Repr

namespace ValueUnit

/-- Drops every repetition of a word from the front, at most `fuel` of them. -/
def dropWord (word : List Char) : Nat → List Char → List Char
  | 0, text => text
  | fuel + 1, text =>
    if word.isPrefixOf text then dropWord word fuel (text.drop word.length) else text

/-- The unit with a name; the name may start with the word `format`, and an unknown name is no
unit. -/
def ofName (name : Option String) : ValueUnit :=
  match name with
  | none => number
  | some name =>
    let trimmed := Text.trimBlanks name.toList
    let base := String.ofList (dropWord "format".toList trimmed.length trimmed)
    if Text.sameName base "currency" || Text.sameName base "usd" then currency
    else if Text.sameName base "xdai" then xDai
    else if Text.sameName base "percentage" || Text.sameName base "percent" then percentage
    else number

/-- What stands before the digits. -/
def leading : ValueUnit → String
  | currency => "$"
  | _ => ""

/-- What stands after the digits. -/
def trailing : ValueUnit → String
  | xDai => " xDAI"
  | percentage => "%"
  | _ => ""

/-- Puts sign and unit around the digits. -/
def affix (unit : ValueUnit) (negative : Bool) (body : String) : String :=
  (if negative then "-" else "") ++ unit.leading ++ body ++ unit.trailing

end ValueUnit

/-! ## Grouped numbers -/

/-- Puts a comma wherever a positive multiple of three digits follows. -/
def groupDigits : List Char → List Char
  | [] => []
  | digit :: rest =>
    if rest.length ≠ 0 ∧ rest.length % 3 = 0 then digit :: ',' :: groupDigits rest
    else digit :: groupDigits rest

/-- Drops the zeros at the end. -/
def dropTrailingZeros (digits : List Char) : List Char :=
  (digits.reverse.dropWhile (· == '0')).reverse

variable {α : Type} [Quantity α]

/-- The text of a quantity with grouped digits and at most `places` decimals; trailing zeros are
dropped, and so is the sign of a quantity that rounds to zero. -/
def groupedText (value : α) (places : Nat) : String :=
  if Quantity.isFinite value then
    let (whole, digits) := (Decimal.mk (Quantity.nearestUnits places value) (-(places : Int))).split
    let fraction := dropTrailingZeros digits
    let negative := decide (value < Quantity.zero) && (whole != ['0'] || !fraction.isEmpty)
    let point := if fraction.isEmpty then [] else ['.']
    String.ofList ((if negative then ['-'] else []) ++ groupDigits whole ++ point ++ fraction)
  else
    "-"

/-! ## Compact numbers -/

/-- A unit of short labels. -/
structure CompactUnit where
  /-- Its size. -/
  size : Nat
  /-- What it is written as. -/
  mark : String
  deriving DecidableEq, Repr

namespace CompactUnit

/-- Single units. -/
def one : CompactUnit := ⟨1, ""⟩

/-- The larger units in ascending order. -/
def larger : List CompactUnit := [⟨1000, "K"⟩, ⟨1000000, "M"⟩, ⟨1000000000, "B"⟩]

end CompactUnit

/-- A magnitude rounded for a short label. -/
structure Compact (α : Type) where
  /-- The rounded number of units. -/
  mantissa : α
  /-- The number of decimals it is written with. -/
  places : Nat
  /-- The unit. -/
  unit : CompactUnit

namespace Compact

/-- Rounds a magnitude in a unit: to one decimal below ten and to a whole number from ten on.  One
decimal is written when the rounded number is below ten. -/
def inUnit (magnitude : α) (unit : CompactUnit) : Compact α :=
  let ten : α := Quantity.ofNat 10
  let scaled := magnitude / Quantity.ofNat unit.size
  let mantissa :=
    if ten ≤ scaled then Quantity.round scaled else Quantity.round (scaled * ten) / ten
  { mantissa, places := if mantissa < ten then 1 else 0, unit }

/-- Rounds a magnitude in the first of some units in which it does not reach a thousand, or in the
last one. -/
def settle (magnitude : α) (unit : CompactUnit) : List CompactUnit → Compact α
  | [] => inUnit magnitude unit
  | next :: rest =>
    if Quantity.ofNat 1000 ≤ (inUnit magnitude unit).mantissa then settle magnitude next rest
    else inUnit magnitude unit

/-- Rounds a magnitude in the largest unit it reaches, or in a larger one if rounding reaches
it. -/
def choose (magnitude : α) (unit : CompactUnit) : List CompactUnit → Compact α
  | [] => inUnit magnitude unit
  | next :: rest =>
    if Quantity.ofNat next.size ≤ magnitude then Compact.choose magnitude next rest
    else settle magnitude unit (next :: rest)

/-- Rounds a magnitude for a short label. -/
def of (magnitude : α) : Compact α :=
  Compact.choose magnitude CompactUnit.one CompactUnit.larger

/-- The text of a short label without sign. -/
def text (compact : Compact α) : String :=
  Quantity.fixedText compact.places compact.mantissa ++ compact.unit.mark

end Compact

/-! ## Formatters -/

/-- How the values of a chart are labelled. -/
structure ValueFormatter where
  /-- The unit. -/
  unit : ValueUnit := .number
  /-- The number of decimals in tooltips. -/
  decimals : Nat := 2
  /-- The magnitude from which on axis labels are short. -/
  compactThreshold : Float := 1000

namespace ValueFormatter

/-- The formatter of a configuration.  There are at most eight decimals, and a threshold that is
not positive is ignored. -/
def ofConfig (config : Config) : ValueFormatter :=
  { unit := ValueUnit.ofName config.format
    decimals := min (config.decimals.getD 2) 8
    compactThreshold :=
      match config.compactThreshold with
      | some threshold => if threshold.isFinite && 0 < threshold then threshold else 1000
      | none => 1000 }

/-- The label of a value on an axis. -/
def axis (formatter : ValueFormatter) (value : α) : String :=
  if Quantity.isFinite value then
    let magnitude := Quantity.abs value
    let body :=
      if magnitude < Quantity.ofFloat formatter.compactThreshold then groupedText magnitude 2
      else (Compact.of magnitude).text
    formatter.unit.affix (decide (value < Quantity.zero)) body
  else
    ""

/-- The label of a value in a tooltip. -/
def tooltip (formatter : ValueFormatter) (value : α) : String :=
  if Quantity.isFinite value then
    formatter.unit.affix (decide (value < Quantity.zero))
      (groupedText (Quantity.abs value) formatter.decimals)
  else
    "-"

end ValueFormatter

/-- A share written as a percentage with at most one decimal. -/
def shareText (percent : Float) : String :=
  groupedText percent 1 ++ "%"

end ChartCompiler
