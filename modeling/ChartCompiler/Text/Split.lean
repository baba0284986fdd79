/-!
# Splitting text

A text is cut at every occurrence of a separator, from the left and without overlaps.  There is
always one part more than there are cuts.
-/

set_option autoImplicit false

namespace ChartCompiler.Text

/-- Cuts a text at a separator.  The characters of a separator that has been found are skipped; the
part read so far is given in reverse. -/
def splitFrom (separator : List Char) : Nat → List Char → List Char → List (List Char)
  | _, before, [] => [before.reverse]
  | skip + 1, before, _ :: rest => splitFrom separator skip before rest
  | 0, before, character :: rest =>
    if separator.isPrefixOf (character :: rest) then
      before.reverse :: splitFrom separator (separator.length - 1) [] rest
    else
      splitFrom separator 0 (character :: before) rest

/-- The parts of a text between the occurrences of a separator, which must not be empty. -/
def split (separator text : List Char) : List (List Char) :=
  splitFrom separator 0 [] text

end ChartCompiler.Text
