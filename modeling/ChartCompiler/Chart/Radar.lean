import ChartCompiler.Axis.Frame

/-!
# Radars

Every category is an axis that runs outward from the middle, and every series a polygon across all
axes.  An axis ends a tenth beyond the largest value on it.
-/

set_option autoImplicit false

namespace ChartCompiler.Radar

/-- Where the axis of some values ends. -/
def spokeBeyond (values : List Float) : Float :=
  let largest := values.foldl Quantity.greatest 0
  if 0 < largest then largest * 1.1 else 1

/-- Where the axis of a category ends. -/
def spokeEnd (data : AxisTable Float) (category : Nat) : Float :=
  spokeBeyond (data.pivot.column category)

/-- The option of the axis of a category. -/
def indicator (name : String) (limit : Float) : Json :=
  .record [("name", name), ("max", .ofFloat limit)]

/-- The option of the polygon of a series. -/
def item (data : AxisTable Float) (writer : TooltipWriter) (name color : String)
    (cells : List (Option Float)) : Json :=
  let entries := List.zipWith
    (fun label value => ({ label, color := none, value } : TooltipEntry)) data.labels cells
  .record
    [ ("name", name),
      ("value", .array (AxisTable.points cells)),
      ("lineStyle", .record [("color", color), ("width", 2)]),
      ("itemStyle", .record [("color", color)]),
      ("areaStyle", .record [("color", color), ("opacity", .ofFloat 0.15)]),
      ("tooltip", formatted (writer.category name entries)) ]

/-- The option of a radar chart around its axes and polygons. -/
def around (indicators items : List Json) (data : AxisTable Float) (colors : List String)
    (config : Config) (dark : Bool) : Json :=
  let theme := Theme.forMode dark
  .record
    [ ("backgroundColor", "transparent"),
      ("color", .strings colors),
      ("legend", (Legend.ofSeries data.pivot.series colors).toJson dark),
      ("tooltip", itemTooltip dark),
      ("radar", .record
        [ ("indicator", .array indicators),
          ("radius", if config.isExpanded then "70%" else "62%"),
          ("center", .strings ["50%", "55%"]),
          ("axisName", .record [("color", theme.mutedText.css)]),
          ("splitLine", .record [("lineStyle", .record [("color", theme.splitLine.css)])]),
          ("axisLine", .record [("lineStyle", .record [("color", theme.axisLine.css)])]),
          ("splitArea", .record [("show", false)]) ]),
      ("series", .array
        [ .record [("type", "radar"), ("symbolSize", 4), ("data", .array items)] ]) ]

/-- The option of a radar chart. -/
def option (data : AxisTable Float) (config : Config) (dark : Bool) : Json :=
  let writer := TooltipWriter.forMode (ValueFormatter.ofConfig config) dark
  let colors := config.seriesColors data.pivot.series.length dark
  let indicators := data.labels.zipIdx.map fun (name, category) =>
    indicator name (spokeEnd data category)
  let rows := (data.pivot.series.zip data.pivot.cells).zip colors
  let items := rows.map fun ((name, cells), color) => item data writer name color cells
  around indicators items data colors config dark

end ChartCompiler.Radar
