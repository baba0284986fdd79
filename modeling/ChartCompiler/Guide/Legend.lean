import ChartCompiler.Json.Value
import ChartCompiler.Guide.Theme

/-!
# Legends

A legend lists names with the colors they are drawn in.  A legend of lines also shows the pattern
of each line.  From nine entries on a legend is scrolled instead of broken into rows.
-/

set_option autoImplicit false

namespace ChartCompiler

/-- The pattern of a line. -/
inductive LinePattern where
  /-- An unbroken line. -/
  | solid
  /-- Dashes. -/
  | dashed
  /-- Dots. -/
  | dotted
  deriving DecidableEq, Repr

namespace LinePattern

/-- The patterns in the order they are given out. -/
def cycle : List LinePattern := [solid, dashed, dotted]

/-- The pattern at a position; the patterns repeat. -/
def nth (index : Nat) : LinePattern :=
  cycle.getD (index % 3) solid

/-- The name of a pattern. -/
def name : LinePattern → String
  | solid => "solid"
  | dashed => "dashed"
  | dotted => "dotted"

end LinePattern

/-- An entry of a legend. -/
structure LegendEntry where
  /-- The name. -/
  label : String
  /-- The color. -/
  color : String
  /-- The pattern, for an entry that stands for a line. -/
  pattern : Option LinePattern
  deriving DecidableEq, Repr

namespace LegendEntry

/-- An entry with a color only. -/
def swatch (label color : String) : LegendEntry :=
  { label, color, pattern := none }

/-- An entry that stands for a line. -/
def line (label color : String) (pattern : LinePattern) : LegendEntry :=
  { label, color, pattern := some pattern }

/-- The option of an entry. -/
def toJson (entry : LegendEntry) : Json :=
  let base : List (String × Json) :=
    [ ("name", entry.label),
      ("itemStyle", .record [("color", entry.color)]) ]
  match entry.pattern with
  | none => .record base
  | some pattern =>
    let stroke : List (String × Json) :=
      [ ("icon", "path://M0,5 L30,5"),
        ("lineStyle", .record
          [ ("color", entry.color),
            ("type", pattern.name),
            ("width", 2) ]) ]
    .record (base ++ stroke)

end LegendEntry

/-- Where a legend stands. -/
inductive LegendSide where
  /-- Above the chart. -/
  | top
  /-- Below the chart. -/
  | bottom
  deriving DecidableEq, Repr

/-- A legend. -/
structure Legend where
  /-- The entries in the order they are shown. -/
  entries : List LegendEntry := []
  /-- Where the legend stands. -/
  side : LegendSide := .top
  deriving DecidableEq, Repr

namespace Legend

/-- The greatest number of entries that are not scrolled. -/
def scrollLimit : Nat := 8

/-- Whether the legend is scrolled. -/
def isScrolled (legend : Legend) : Bool :=
  decide (scrollLimit < legend.entries.length)

/-- The option of a legend. -/
def toJson (legend : Legend) (dark : Bool) : Json :=
  let theme := Theme.forMode dark
  let text := theme.text.css
  let edge : String × Json :=
    match legend.side with
    | .top => ("top", 4)
    | .bottom => ("bottom", 4)
  let pages : List (String × Json) :=
    if legend.isScrolled then
      [ ("pageIconColor", text),
        ("pageIconInactiveColor", theme.mutedText.css),
        ("pageTextStyle", .record [("color", text)]) ]
    else
      []
  let base : List (String × Json) :=
    [ ("show", !legend.entries.isEmpty),
      ("type", if legend.isScrolled then "scroll" else "plain"),
      ("left", "center"),
      ("itemWidth", 14),
      ("itemHeight", 10),
      ("textStyle", .record [("color", text)]),
      ("data", .array (legend.entries.map LegendEntry.toJson)),
      edge ]
  .record (base ++ pages)

/-- The legend of the series of a chart; a single series has no entry. -/
def ofSeries (names colors : List String) : Legend :=
  if names.length < 2 then {}
  else { entries := List.zipWith LegendEntry.swatch names colors }

end Legend

end ChartCompiler
