import ChartCompiler.Format.Value
import ChartCompiler.Guide.Theme

/-!
# Tooltips

An option is plain data, so its tooltips are texts of markup made beforehand.  A tooltip has a
title and lines; a line has a label, a value and, when it has a color, a round marker.  All text
that comes from data passes through `Markup.escape`, which leaves no character that could open or
close markup.
-/

set_option autoImplicit false

namespace ChartCompiler

namespace Markup

/-- The markup of a character that is shown as it is. -/
def escapeChar (character : Char) : List Char :=
  if character.toNat = 0x26 then "&amp;".toList
  else if character.toNat = 0x3C then "&lt;".toList
  else if character.toNat = 0x3E then "&gt;".toList
  else if character.toNat = 0x22 then "&quot;".toList
  else if character.toNat = 0x27 then "&#39;".toList
  else [character]

/-- The markup of a text that is shown as it is. -/
def escape (text : String) : String :=
  String.ofList (text.toList.flatMap escapeChar)

end Markup

/-- A line of a tooltip that shows a value. -/
structure TooltipEntry where
  /-- The label. -/
  label : String
  /-- The color of the marker. -/
  color : Option String
  /-- The value; a missing one is shown as a dash. -/
  value : Option Float

namespace TooltipEntry

/-- Whether an entry stands no later than another one in descending order of values.  Missing
values come last. -/
def descending (left right : TooltipEntry) : Bool :=
  match left.value, right.value with
  | some left, some right => Quantity.totalLE right left
  | some _, none => true
  | none, some _ => false
  | none, none => true

end TooltipEntry

/-- How tooltips are written. -/
structure TooltipWriter where
  /-- How values are labelled. -/
  formatter : ValueFormatter
  /-- The colors of texts and rules. -/
  theme : Theme
  /-- Whether entries are put in descending order of their values. -/
  sortsEntries : Bool := false
  /-- Whether the sum of the values is added. -/
  addsTotal : Bool := false

namespace TooltipWriter

/-- The writer for a dark-mode flag. -/
def forMode (formatter : ValueFormatter) (dark : Bool) : TooltipWriter :=
  { formatter, theme := Theme.forMode dark }

/-- The number of columns that some number of entries is shown in. -/
def columnCount (entries : Nat) : Nat :=
  if entries ≤ 10 then 1 else min ((entries + 9) / 10) 3

/-- The markup of a title. -/
def title (writer : TooltipWriter) (text : String) : String :=
  "<div style=\"font-weight:600;margin-bottom:4px;color:" ++ writer.theme.text.css ++ "\">" ++
    Markup.escape text ++ "</div>"

/-- The markup of the marker of a line. -/
def marker : Option String → String
  | none => ""
  | some color =>
    "<span style=\"display:inline-block;width:8px;height:8px;border-radius:50%;background:" ++
      Markup.escape color ++ "\"></span>"

/-- The markup of a line. -/
def line (writer : TooltipWriter) (label : String) (color : Option String) (value : String) :
    String :=
  "<div style=\"display:flex;align-items:center;gap:6px\">" ++ marker color ++
    "<span style=\"color:" ++ writer.theme.mutedText.css ++ "\">" ++ Markup.escape label ++
    "</span><span style=\"margin-left:auto;font-weight:600\">" ++ Markup.escape value ++
    "</span></div>"

/-- The markup of the sum of some entries. -/
def totalLine (writer : TooltipWriter) (entries : List TooltipEntry) : String :=
  let total := Quantity.sum (entries.filterMap (·.value))
  "<div style=\"display:flex;gap:12px;margin-top:4px;padding-top:4px;border-top:1px solid " ++
    writer.theme.splitLine.css ++
    "\"><span>Total</span><span style=\"margin-left:auto;font-weight:600\">" ++
    writer.formatter.tooltip total ++ "</span></div>"

/-- The text of the value of an entry. -/
def valueText (writer : TooltipWriter) (entry : TooltipEntry) : String :=
  match entry.value with
  | some value => writer.formatter.tooltip value
  | none => "-"

/-- The tooltip of a category: a line for each entry. -/
def category (writer : TooltipWriter) (title : String) (entries : List TooltipEntry) : String :=
  let ordered :=
    if writer.sortsEntries then entries.mergeSort TooltipEntry.descending else entries
  let lines := ordered.map fun entry =>
    writer.line entry.label entry.color (writer.valueText entry)
  writer.title title ++
    "<div style=\"display:grid;grid-template-columns:repeat(" ++
    naturalText (columnCount entries.length) ++ ",minmax(0,auto));gap:2px 16px\">" ++
    String.join lines ++ "</div>" ++
    (if writer.addsTotal then writer.totalLine entries else "")

/-- The tooltip of an item: lines whose values are texts already. -/
def item (writer : TooltipWriter) (title : String) (color : Option String)
    (lines : List (String × String)) : String :=
  writer.title title ++
    String.join (lines.map fun (label, value) => writer.line label color value)

end TooltipWriter

end ChartCompiler
