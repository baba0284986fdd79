import ChartCompiler.Json.Value
import ChartCompiler.Number.Reading

/-!
# Reading JSON

Each reader takes what it needs from the front of the characters and hands back the rest.  A number
without point and exponent is whole when it fits in 64 bits, signed or unsigned; every other number
is a double, and so is the negative zero.  Of several members under one key the last counts.
Arrays and objects are read to a fixed depth; a text that nests them deeper is refused.

Of three steps in a row at least one takes a character, so three times the number of characters,
which a caller passes as fuel, bounds them all.
-/

set_option autoImplicit false

namespace ChartCompiler.Json

/-- Drops the white space that JSON allows between its parts. -/
def skipSpace (text : List Char) : List Char :=
  text.dropWhile fun character =>
    character == ' ' || character == '\n' || character == '\t' || character == '\r'

/-- The value of a hexadecimal digit. -/
def hexValue? (character : Char) : Option Nat :=
  let code := character.toNat
  if 48 ≤ code ∧ code ≤ 57 then some (code - 48)
  else if 65 ≤ code ∧ code ≤ 70 then some (code - 55)
  else if 97 ≤ code ∧ code ≤ 102 then some (code - 87)
  else none

/-- Reads four hexadecimal digits. -/
def readUnit : List Char → Option (Nat × List Char)
  | first :: second :: third :: fourth :: rest => do
    let first ← hexValue? first
    let second ← hexValue? second
    let third ← hexValue? third
    let fourth ← hexValue? fourth
    some (((first * 16 + second) * 16 + third) * 16 + fourth, rest)
  | _ => none

/-- Reads the character that follows `\u`; a character beyond the first 65536 takes two units. -/
def readEscapedUnit (text : List Char) : Option (Char × List Char) := do
  let (unit, rest) ← readUnit text
  if 0xD800 ≤ unit ∧ unit < 0xDC00 then
    match rest with
    | '\\' :: 'u' :: more =>
      let (low, rest) ← readUnit more
      if 0xDC00 ≤ low ∧ low < 0xE000 then
        some (Char.ofNat (0x10000 + (unit - 0xD800) * 0x400 + (low - 0xDC00)), rest)
      else
        none
    | _ => none
  else if 0xDC00 ≤ unit ∧ unit < 0xE000 then
    none
  else
    some (Char.ofNat unit, rest)

/-- Reads a character of a text after a backslash. -/
def readEscape : List Char → Option (Char × List Char)
  | '"' :: rest => some ('"', rest)
  | '\\' :: rest => some ('\\', rest)
  | '/' :: rest => some ('/', rest)
  | 'b' :: rest => some (Char.ofNat 8, rest)
  | 'f' :: rest => some (Char.ofNat 12, rest)
  | 'n' :: rest => some ('\n', rest)
  | 'r' :: rest => some ('\r', rest)
  | 't' :: rest => some ('\t', rest)
  | 'u' :: rest => readEscapedUnit rest
  | _ => none

/-- Reads the rest of a text after its opening quotation mark; the characters read so far are given
in reverse. -/
def readText : Nat → List Char → List Char → Option (String × List Char)
  | 0, _, _ => none
  | _ + 1, _, [] => none
  | fuel + 1, before, character :: rest =>
    if character = '"' then some (String.ofList before.reverse, rest)
    else if character = '\\' then do
      let (escaped, rest) ← readEscape rest
      readText fuel (escaped :: before) rest
    else if character.toNat < 0x20 then none
    else readText fuel (character :: before) rest

/-- Whether a character can stand in a number. -/
def isNumeric (character : Char) : Bool :=
  isDigit character || character == '-' || character == '+' || character == '.' ||
    character == 'e' || character == 'E'

/-- The number that a whole numeral spells. -/
def numberOf (text : List Char) : Option Json := do
  let numeral ← Numeral.read text
  let spelledWhole := text.all fun character => isDigit character || character == '-'
  let value : Int := if numeral.negative then -numeral.coefficient else numeral.coefficient
  let fits := decide (-(twoTo 63 : Int) ≤ value ∧ value < twoTo 64)
  let negativeZero := numeral.negative && numeral.coefficient == 0
  if spelledWhole && fits && !negativeZero then
    some (integer value)
  else
    let double := numeral.toFloat
    if double.isFinite then some (float double) else none

/-- Takes a fixed word off the front. -/
def readWord (word : String) (value : Json) (text : List Char) : Option (Json × List Char) :=
  if word.toList.isPrefixOf text then some (value, text.drop word.toList.length) else none

mutual

/-- Reads a value that holds arrays and objects at most `levels` deep. -/
def readValue (fuel levels : Nat) (text : List Char) : Option (Json × List Char) :=
  match fuel with
  | 0 => none
  | fuel + 1 =>
    match skipSpace text with
    | [] => none
    | '"' :: rest => do
      let (text, rest) ← readText fuel [] rest
      some (string text, rest)
    | character :: rest =>
      if character = '[' ∨ character = Char.ofNat 0x7B then
        match levels with
        | 0 => none
        | inner + 1 =>
          if character = '[' then readArray fuel inner rest else readObject fuel inner rest
      else if character = 't' then readWord "true" (bool true) (character :: rest)
      else if character = 'f' then readWord "false" (bool false) (character :: rest)
      else if character = 'n' then readWord "null" null (character :: rest)
      else
        let numeral := (character :: rest).takeWhile isNumeric
        (numberOf numeral).map fun value => (value, (character :: rest).dropWhile isNumeric)

/-- Reads an array after its opening bracket. -/
def readArray (fuel levels : Nat) (text : List Char) : Option (Json × List Char) :=
  match fuel with
  | 0 => none
  | fuel + 1 =>
    match skipSpace text with
    | ']' :: rest => some (array [], rest)
    | rest => do
      let (items, rest) ← readItems fuel levels rest
      some (array items, rest)

/-- Reads an object after its opening brace. -/
def readObject (fuel levels : Nat) (text : List Char) : Option (Json × List Char) :=
  match fuel with
  | 0 => none
  | fuel + 1 =>
    match skipSpace text with
    | next :: after =>
      if next = Char.ofNat 0x7D then some (object [], after)
      else do
        let (entries, rest) ← readMembers fuel levels (next :: after)
        some (record entries, rest)
    | [] => none

/-- Reads the items of an array up to its closing bracket. -/
def readItems (fuel levels : Nat) (text : List Char) : Option (List Json × List Char) :=
  match fuel with
  | 0 => none
  | fuel + 1 => do
    let (item, rest) ← readValue fuel levels text
    match skipSpace rest with
    | ',' :: rest =>
      let (items, rest) ← readItems fuel levels rest
      some (item :: items, rest)
    | ']' :: rest => some ([item], rest)
    | _ => none

/-- Reads the members of an object up to its closing brace. -/
def readMembers (fuel levels : Nat) (text : List Char) :
    Option (List (String × Json) × List Char) :=
  match fuel with
  | 0 => none
  | fuel + 1 =>
    match skipSpace text with
    | '"' :: rest => do
      let (key, rest) ← readText fuel [] rest
      match skipSpace rest with
      | ':' :: rest =>
        let (value, rest) ← readValue fuel levels rest
        match skipSpace rest with
        | ',' :: rest =>
          let (members, rest) ← readMembers fuel levels rest
          some ((key, value) :: members, rest)
        | closing :: rest => if closing = Char.ofNat 0x7D then some ([(key, value)], rest) else none
        | [] => none
      | _ => none
    | _ => none

end

/-- How many arrays and objects may stand inside one another. -/
def depthLimit : Nat := 127

/-- Reads a text that holds exactly one value. -/
def read? (text : String) : Option Json :=
  let characters := text.toList
  match readValue (3 * (characters.length + 1)) depthLimit characters with
  | some (value, rest) => if (skipSpace rest).isEmpty then some value else none
  | none => none

end ChartCompiler.Json
