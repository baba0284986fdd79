/-!
# Blank characters and the letters of names

Text is trimmed of every character that Unicode counts as white space.  Names are compared without
regard to the case of the letters `A` to `Z`; all other characters must agree exactly.
-/

set_option autoImplicit false

namespace ChartCompiler.Text

/-- Whether a character is white space. -/
def isBlank (character : Char) : Bool :=
  let code := character.toNat
  decide ((9 ≤ code ∧ code ≤ 13) ∨ code = 0x20 ∨ code = 0x85 ∨ code = 0xA0 ∨ code = 0x1680 ∨
    (0x2000 ≤ code ∧ code ≤ 0x200A) ∨ code = 0x2028 ∨ code = 0x2029 ∨ code = 0x202F ∨
    code = 0x205F ∨ code = 0x3000)

/-- Drops the blanks at the start. -/
def dropBlanks (text : List Char) : List Char :=
  text.dropWhile isBlank

/-- Drops the blanks at both ends. -/
def trimBlanks (text : List Char) : List Char :=
  (dropBlanks (dropBlanks text).reverse).reverse

/-- Drops the blanks at both ends of a string. -/
def trim (text : String) : String :=
  String.ofList (trimBlanks text.toList)

/-- Whether two names agree up to the case of the letters `A` to `Z`. -/
def sameName (left right : String) : Bool :=
  left.toList.map Char.toLower == right.toList.map Char.toLower

end ChartCompiler.Text
