import ChartCompiler.Config.Basic
import ChartCompiler.Number.Numeral
import ChartCompiler.Guide.Theme

/-!
# Insets and zoom

All charts with axes take the insets of the plot and the zoom controls from the same layout, so
that charts of one size line up.  The layout depends on three flags only: whether the chart is
shown large, whether it can be zoomed, and whether a legend stands above the plot.
-/

set_option autoImplicit false

namespace ChartCompiler

/-- The distance of the plot from an edge of the chart. -/
inductive Inset where
  /-- In pixels. -/
  | pixels (amount : Float)
  /-- In percent of the chart. -/
  | percent (amount : Float)

namespace Inset

/-- The option of an inset. -/
def toJson : Inset → Json
  | pixels amount => .ofFloat amount
  | percent amount => .string (floatText .plain amount ++ "%")

end Inset

/-- The axis that a zoom control moves along. -/
inductive ZoomAxis where
  /-- The horizontal axis. -/
  | x
  /-- The vertical axis. -/
  | y
  deriving DecidableEq, Repr

namespace ZoomAxis

/-- The key under which a zoom control names its axis. -/
def indexKey : ZoomAxis → String
  | x => "xAxisIndex"
  | y => "yAxisIndex"

end ZoomAxis

/-- The insets of a plot. -/
structure PlotInsets where
  /-- From the left. -/
  left : Inset
  /-- From the right. -/
  right : Inset
  /-- From the top. -/
  top : Inset
  /-- From the bottom. -/
  bottom : Inset

namespace PlotInsets

/-- The option of the insets; axis labels count as part of the plot. -/
def toJson (insets : PlotInsets) : Json :=
  .record
    [ ("left", insets.left.toJson),
      ("right", insets.right.toJson),
      ("top", insets.top.toJson),
      ("bottom", insets.bottom.toJson),
      ("containLabel", true) ]

end PlotInsets

/-- What the insets and the zoom controls of a plot depend on. -/
structure PlotLayout where
  /-- Whether the chart is shown large. -/
  isExpanded : Bool
  /-- Whether the chart can be zoomed. -/
  zoomEnabled : Bool
  /-- Whether a legend stands above the plot. -/
  hasLegend : Bool
  deriving DecidableEq, Repr

namespace PlotLayout

/-- The layout of a configuration. -/
def ofConfig (config : Config) (hasLegend : Bool) : PlotLayout :=
  { isExpanded := config.isExpanded, zoomEnabled := config.enableZoom, hasLegend }

/-- The height of the zoom slider. -/
def sliderHeight (layout : PlotLayout) : Float :=
  if layout.isExpanded then 24 else 18

/-- The insets: room for the legend above and for the slider below. -/
def grid (layout : PlotLayout) : PlotInsets :=
  let side : Float := if layout.isExpanded then 2 else 3
  let base : Float := if layout.isExpanded then 32 else 16
  { left := .percent side
    right := .percent (side + 1)
    top := .pixels (if layout.hasLegend then base + 32 else base + 8)
    bottom := .pixels (if layout.zoomEnabled then base + layout.sliderHeight + 24 else base) }

/-- The accent of the zoom slider. -/
def sliderAccent : Color := ⟨0x4F, 0x46, 0xE5, 255⟩

/-- The accent at fifteen percent opacity. -/
def zoomWindow : Color := ⟨0x4F, 0x46, 0xE5, 38⟩

/-- The zoom controls: none, or one inside the plot and a slider beside it. -/
def dataZoom (layout : PlotLayout) (dark : Bool) (axis : ZoomAxis) : List Json :=
  if layout.zoomEnabled then
    let theme := Theme.forMode dark
    let offset : Json := .ofFloat (if layout.isExpanded then 16 else 8)
    let height : Json := .ofFloat layout.sliderHeight
    let placement : List (String × Json) :=
      match axis with
      | .x => [("height", height), ("bottom", offset)]
      | .y => [("orient", "vertical"), ("width", height), ("right", offset)]
    let slider : List (String × Json) :=
      [ ("type", "slider"),
        ("start", 0),
        ("end", 100),
        ("borderColor", theme.axisLine.css),
        ("fillerColor", zoomWindow.css),
        ("handleStyle", .record [("color", sliderAccent.css)]),
        ("textStyle", .record [("color", theme.mutedText.css)]),
        (axis.indexKey, 0) ]
    [ .record
        [ ("type", "inside"),
          ("start", 0),
          ("end", 100),
          ("zoomOnMouseWheel", "shift"),
          (axis.indexKey, 0) ],
      .record (slider ++ placement) ]
  else
    []

end PlotLayout

end ChartCompiler
