import ChartCompiler.Text.CaseTable

/-!
# Lowercase text

Each character is replaced by its lowercase form.  One letter depends on its surroundings: the
Greek capital sigma becomes the final sigma at the end of a word, that is, when the nearest
character before it that the case of a word does not pass over has a case and the nearest such
character after it has none.
-/

set_option autoImplicit false

namespace ChartCompiler.Text

/-- Whether a character lies in one of some ranges. -/
def inRanges (ranges : List (Nat × Nat)) (character : Char) : Bool :=
  ranges.any fun (first, last) => decide (first ≤ character.toNat ∧ character.toNat ≤ last)

/-- Whether a character has a case. -/
def isCased (character : Char) : Bool :=
  inRanges casedRanges character

/-- Whether the case of a word passes over a character. -/
def isCaseIgnorable (character : Char) : Bool :=
  inRanges caseIgnorableRanges character

/-- The lowercase form of a character on its own. -/
def lowercaseChar (character : Char) : List Char :=
  let code := character.toNat
  if code = 0x130 then [Char.ofNat 0x69, Char.ofNat 0x307]
  else
    let run? := lowercaseRuns.find? fun (first, last, stride, _) =>
      decide (first ≤ code ∧ code ≤ last ∧ (code - first) % stride = 0)
    match run? with
    | some (_, _, _, distance) => [Char.ofNat ((code : Int) + distance).toNat]
    | none => [character]

/-- Whether the first character that is not passed over has a case. -/
def startsCased (text : List Char) : Bool :=
  match text.dropWhile isCaseIgnorable with
  | [] => false
  | character :: _ => isCased character

/-- Lowercases the rest of a text; the characters before it are given in reverse. -/
def lowercaseFrom (before : List Char) : List Char → List Char
  | [] => []
  | character :: after =>
    let form :=
      if character.toNat = 0x3A3 then
        [Char.ofNat (if startsCased before && !startsCased after then 0x3C2 else 0x3C3)]
      else
        lowercaseChar character
    form ++ lowercaseFrom (character :: before) after

/-- The lowercase form of a text. -/
def lowercase (text : String) : String :=
  String.ofList (lowercaseFrom [] text.toList)

end ChartCompiler.Text
