import ChartCompiler.Axis.Frame

/-!
# Bars

One bar for each category and series, upright or on its side, beside each other or stacked.  Of a
stack only the outermost part has round corners.
-/

set_option autoImplicit false

namespace ChartCompiler.Bar

/-- The option of the corners of a series. -/
def corners (config : Config) (outermost : Bool) : Json :=
  if config.stacked && !outermost then 0
  else if config.horizontal then .array [0, 4, 4, 0]
  else .array [4, 4, 0, 0]

/-- Where the label of a bar stands. -/
def labelPosition (config : Config) : String :=
  if config.stacked then "inside" else if config.horizontal then "right" else "top"

/-- The option of a series. -/
def series (config : Config) (name color : String) (cells : List (Option Float))
    (outermost : Bool) : Json :=
  let formatter := ValueFormatter.ofConfig config
  let base : Json := .record
    [ ("name", name),
      ("type", "bar"),
      ("data", .array (AxisTable.labelledPoints cells formatter config.showLabels)),
      ("barMaxWidth", .ofFloat 48),
      ("itemStyle", .record [("color", color), ("borderRadius", corners config outermost)]),
      ("label", .record
        [("show", config.showLabels), ("position", labelPosition config)]),
      ("emphasis", .record [("focus", "series")]) ]
  base.setIf config.stacked "stack" "total"

/-- The frame of a bar chart. -/
def frame (colors : List String) (series : List Json) (range : Option (Extent Float))
    (config : Config) (dark : Bool) : PlotFrame :=
  { colors
    series
    valueAxis := valueAxis range (ValueFormatter.ofConfig config) dark
    boundaryGap := true
    shadowPointer := true
    horizontal := config.horizontal }

/-- The option of a bar chart. -/
def option (data : AxisTable Float) (config : Config) (dark : Bool) : Json :=
  let count := data.pivot.series.length
  let colors := config.seriesColors count dark
  let rows := (data.pivot.series.zip data.pivot.cells).zip colors
  let series := rows.zipIdx.map fun (((name, cells), color), index) =>
    series config name color cells (decide (index + 1 = count))
  (frame colors series (data.valueRange config.stacked true) config dark).toOption data config dark

end ChartCompiler.Bar
