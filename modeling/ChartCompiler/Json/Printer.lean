import ChartCompiler.Json.Value
import ChartCompiler.Number.Numeral

/-!
# Writing JSON

A value has two written forms: one line without spaces, and an indented form with one member or
item to a line.  Both write numbers, texts and members alike.  In a text only the quotation mark,
the backslash and the control characters below the space are escaped.
-/

set_option autoImplicit false

namespace ChartCompiler.Json

/-- The digit of a number below sixteen. -/
def hexDigit (number : Nat) : Char :=
  if number < 10 then Char.ofNat (48 + number) else Char.ofNat (87 + number)

/-- The written form of a character inside a text. -/
def escapeChar (character : Char) : List Char :=
  let code := character.toNat
  if code = 0x22 then ['\\', '"']
  else if code = 0x5C then ['\\', '\\']
  else if 0x20 ≤ code then [character]
  else if code = 0x08 then ['\\', 'b']
  else if code = 0x09 then ['\\', 't']
  else if code = 0x0A then ['\\', 'n']
  else if code = 0x0C then ['\\', 'f']
  else if code = 0x0D then ['\\', 'r']
  else ['\\', 'u', '0', '0', hexDigit (code / 16), hexDigit (code % 16)]

/-- The written form of a text. -/
def quote (text : String) : String :=
  "\"" ++ String.ofList (text.toList.flatMap escapeChar) ++ "\""

mutual

/-- The written form of a value on one line. -/
def compact : Json → String
  | null => "null"
  | bool true => "true"
  | bool false => "false"
  | integer value => integerText value
  | float value => floatText .data value
  | string text => quote text
  | array items => "[" ++ String.intercalate "," (compactItems items) ++ "]"
  | object members => "\x7b" ++ String.intercalate "," (compactMembers members) ++ "\x7d"

/-- The written forms of the items of an array. -/
def compactItems : List Json → List String
  | [] => []
  | item :: rest => compact item :: compactItems rest

/-- The written forms of the members of an object. -/
def compactMembers : List (String × Json) → List String
  | [] => []
  | (key, value) :: rest => (quote key ++ ":" ++ compact value) :: compactMembers rest

end

/-- A new line indented by two spaces for each level. -/
def newLine (depth : Nat) : String :=
  "\n" ++ String.ofList (List.replicate (2 * depth) ' ')

/-- Puts the parts of an array or object on lines of their own; without parts the brackets touch. -/
def block (opening closing : String) (depth : Nat) (parts : List String) : String :=
  match parts with
  | [] => opening ++ closing
  | _ =>
    opening ++ newLine (depth + 1) ++ String.intercalate ("," ++ newLine (depth + 1)) parts ++
      newLine depth ++ closing

mutual

/-- The indented form of a value that stands at a depth of nesting. -/
def indented (depth : Nat) : Json → String
  | array items => block "[" "]" depth (indentedItems (depth + 1) items)
  | object members => block "\x7b" "\x7d" depth (indentedMembers (depth + 1) members)
  | null => compact null
  | bool value => compact (bool value)
  | integer value => compact (integer value)
  | float value => compact (float value)
  | string text => compact (string text)

/-- The indented forms of the items of an array. -/
def indentedItems (depth : Nat) : List Json → List String
  | [] => []
  | item :: rest => indented depth item :: indentedItems depth rest

/-- The indented forms of the members of an object. -/
def indentedMembers (depth : Nat) : List (String × Json) → List String
  | [] => []
  | (key, value) :: rest =>
    (quote key ++ ": " ++ indented depth value) :: indentedMembers depth rest

end

/-- The indented form of a value. -/
def pretty (value : Json) : String :=
  indented 0 value

end ChartCompiler.Json
