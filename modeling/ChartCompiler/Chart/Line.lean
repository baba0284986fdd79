import ChartCompiler.Axis.Frame

/-!
# Lines and areas

An area is a line with the region below it filled, down to the axis or to the series below it in a
stack.  Gaps break the line.  Points are marked only while there are few of them.
-/

set_option autoImplicit false

namespace ChartCompiler.Line

/-- The greatest number of categories whose points are marked. -/
def markedPointLimit : Nat := 30

/-- The option of a series. -/
def series (area : Bool) (config : Config) (name color : String) (cells : List (Option Float))
    (showSymbol : Bool) : Json :=
  let formatter := ValueFormatter.ofConfig config
  let opacity : Float := if config.stacked then 0.55 else 0.2
  let base : Json := .record
    [ ("name", name),
      ("type", "line"),
      ("data", .array (AxisTable.labelledPoints cells formatter config.showLabels)),
      ("smooth", config.smooth),
      ("showSymbol", showSymbol),
      ("symbolSize", 6),
      ("connectNulls", false),
      ("lineStyle", .record [("width", 2), ("color", color)]),
      ("itemStyle", .record [("color", color)]),
      ("label", .record [("show", config.showLabels), ("position", "top")]),
      ("emphasis", .record [("focus", "series")]) ]
  let filled :=
    base.setIf area "areaStyle" (.record [("color", color), ("opacity", .ofFloat opacity)])
  filled.setIf config.stacked "stack" "total"

/-- The frame of a line chart, or of an area chart. -/
def frame (colors : List String) (series : List Json) (range : Option (Extent Float))
    (config : Config) (dark : Bool) : PlotFrame :=
  { colors
    series
    valueAxis := valueAxis range (ValueFormatter.ofConfig config) dark
    boundaryGap := false
    shadowPointer := false
    horizontal := false }

/-- The option of a line chart, or of an area chart. -/
def option (area : Bool) (data : AxisTable Float) (config : Config) (dark : Bool) : Json :=
  let colors := config.seriesColors data.pivot.series.length dark
  let showSymbol := decide (data.pivot.categories.length ≤ markedPointLimit)
  let rows := (data.pivot.series.zip data.pivot.cells).zip colors
  let series := rows.map fun ((name, cells), color) =>
    series area config name color cells showSymbol
  (frame colors series (data.valueRange config.stacked area) config dark).toOption data config dark

end ChartCompiler.Line
