import ChartCompiler.Axis.Table
import ChartCompiler.Guide.Layout
import ChartCompiler.Guide.Legend
import ChartCompiler.Guide.Palette
import ChartCompiler.Guide.Ticks
import ChartCompiler.Guide.Tooltip

/-!
# The frame of charts with axes

Axes, tooltips, legend and zoom controls are the same for all charts with a category axis.  The
frame puts them together with the series of one kind of chart into an option.
-/

set_option autoImplicit false

namespace ChartCompiler

/-! ## Axes -/

/-- The option of a category axis. -/
def categoryAxis (labels : List String) (boundaryGap dark : Bool) : Json :=
  let theme := Theme.forMode dark
  .record
    [ ("type", "category"),
      ("data", .strings labels),
      ("boundaryGap", boundaryGap),
      ("axisLine", .record [("lineStyle", .record [("color", theme.axisLine.css)])]),
      ("axisTick", .record [("show", false)]),
      ("axisLabel", .record [("color", theme.mutedText.css), ("hideOverlap", true)]) ]

/-- The option of a value axis over an extent, with ticks on round numbers and their labels. -/
def valueAxis (extent : Option (Extent Float)) (formatter : ValueFormatter) (dark : Bool) : Json :=
  let theme := Theme.forMode dark
  let ticks :=
    match extent with
    | some extent => roundTicks extent.min extent.max 5
    | none => []
  let ends : List (String × Json) :=
    match ticks.head?, ticks.getLast? with
    | some first, some last => [("min", .ofFloat first), ("max", .ofFloat last)]
    | _, _ => []
  let base : List (String × Json) :=
    [ ("type", "value"),
      ("axisLine", .record [("show", false)]),
      ("splitLine", .record [("lineStyle", .record [("color", theme.splitLine.css)])]),
      ("axisLabel", .record
        [ ("color", theme.mutedText.css),
          ("customValues", .array (ticks.map Json.ofFloat)),
          ("labels", .strings (ticks.map formatter.axis)) ]) ]
  .record (base ++ ends)

/-! ## Tooltips -/

/-- The members of the option of a tooltip. -/
def tooltipMembers (trigger : String) (dark : Bool) : List (String × Json) :=
  let theme := Theme.forMode dark
  [ ("trigger", trigger),
    ("confine", true),
    ("backgroundColor", theme.tooltipBackground.css),
    ("borderColor", theme.tooltipBorder.css),
    ("textStyle", .record [("color", theme.text.css)]) ]

/-- The option of the tooltips of items. -/
def itemTooltip (dark : Bool) : Json :=
  .record (tooltipMembers "item" dark)

/-- The option of the tooltips of categories, with their contents. -/
def axisTooltip (contents : List String) (shadow dark : Bool) : Json :=
  let pointer : List (String × Json) :=
    [ ("axisPointer", .record [("type", if shadow then "shadow" else "line")]),
      ("axisContent", .strings contents) ]
  .record (tooltipMembers "axis" dark ++ pointer)

/-- The option of the tooltip of an item, or of the label of a point. -/
def formatted (text : String) : Json :=
  .record [("formatter", text)]

namespace AxisTable

/-- How the tooltips of categories are written.  Stacked series are put in order of their values,
and their total is added. -/
def tooltipWriter (data : AxisTable Float) (formatter : ValueFormatter) (stacked dark : Bool) :
    TooltipWriter :=
  let several := stacked && decide (1 < data.pivot.series.length)
  { TooltipWriter.forMode formatter dark with
    sortsEntries := several
    addsTotal := several }

/-- The tooltip of each category: the values of all series. -/
def categoryTooltips (data : AxisTable Float) (colors : List String) (formatter : ValueFormatter)
    (stacked dark : Bool) : List String :=
  data.titles.zipIdx.map fun (title, category) =>
    (data.tooltipWriter formatter stacked dark).category title
      ((data.pivot.series.zip data.pivot.cells).zipIdx.map fun ((name, cells), series) =>
        { label := name, color := colors[series]?, value := (cells[category]?).join })

/-- The data of a series; gaps are missing values. -/
def points (cells : List (Option Float)) : List Json :=
  cells.map fun
    | some value => .ofFloat value
    | none => .null

/-- The data of a series, where every point carries its label if labels are shown. -/
def labelledPoints (cells : List (Option Float)) (formatter : ValueFormatter)
    (showLabels : Bool) : List Json :=
  if showLabels then
    cells.map fun
      | some value =>
        .record [("value", .ofFloat value), ("label", formatted (formatter.axis value))]
      | none => .null
  else
    points cells

end AxisTable

/-! ## Frames -/

/-- The parts in which charts with axes differ. -/
structure PlotFrame where
  /-- The colors of the series. -/
  colors : List String
  /-- The options of the series. -/
  series : List Json
  /-- The option of the value axis. -/
  valueAxis : Json
  /-- Whether the category axis keeps a gap at its ends. -/
  boundaryGap : Bool
  /-- Whether a shadow follows the pointer. -/
  shadowPointer : Bool
  /-- Whether the category axis is the vertical one. -/
  horizontal : Bool

namespace PlotFrame

/-- The option of a chart with axes around the tooltips of its categories. -/
def around (frame : PlotFrame) (tooltips : List String) (data : AxisTable Float) (config : Config)
    (dark : Bool) : Json :=
  let legend := Legend.ofSeries data.pivot.series frame.colors
  let layout := PlotLayout.ofConfig config (!legend.entries.isEmpty)
  let categories := categoryAxis data.labels frame.boundaryGap dark
  .record
    [ ("backgroundColor", "transparent"),
      ("color", .strings frame.colors),
      ("grid", layout.grid.toJson),
      ("legend", legend.toJson dark),
      ("tooltip", axisTooltip tooltips frame.shadowPointer dark),
      ("xAxis", if frame.horizontal then frame.valueAxis else categories),
      ("yAxis", if frame.horizontal then categories else frame.valueAxis),
      ("dataZoom", .array (layout.dataZoom dark (if frame.horizontal then .y else .x))),
      ("series", .array frame.series) ]

/-- The option of a chart with axes. -/
def toOption (frame : PlotFrame) (data : AxisTable Float) (config : Config) (dark : Bool) : Json :=
  let formatter := ValueFormatter.ofConfig config
  frame.around (data.categoryTooltips frame.colors formatter config.stacked dark) data config dark

end PlotFrame

end ChartCompiler
