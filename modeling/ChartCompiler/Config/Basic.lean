import ChartCompiler.Json.Value
import ChartCompiler.Pivot.Tally

/-!
# Chart configurations

One configuration serves every kind of chart: fields that all charts share, and a group of options
for each kind that needs its own.  Every option has a default, so the empty configuration is a
valid one.
-/

set_option autoImplicit false

namespace ChartCompiler

/-- Colors for the two themes. -/
structure ThemePalette where
  /-- Colors of the light theme. -/
  light : List String := []
  /-- Colors of the dark theme. -/
  dark : List String := []
  deriving DecidableEq, Repr

namespace ThemePalette

/-- The colors for a dark-mode flag. -/
def forMode (palette : ThemePalette) (dark : Bool) : List String :=
  if dark then palette.dark else palette.light

end ThemePalette

/-- What the widths of edges are measured against. -/
inductive WidthMeasure where
  /-- The weight at the ninetieth percentile; heavier edges are as wide as possible. -/
  | percentile90
  /-- The least and the greatest weight. -/
  | minMax
  deriving DecidableEq, Repr

/-- Options of networks. -/
structure NetworkOptions where
  /-- The field of the source of an edge. -/
  sourceField : Option String := none
  /-- The field of the target of an edge. -/
  targetField : Option String := none
  /-- The field of the name of the source. -/
  sourceNameField : Option String := none
  /-- The field of the name of the target. -/
  targetNameField : Option String := none
  /-- The field of the category of the source. -/
  sourceGroupField : Option String := none
  /-- The field of the category of the target. -/
  targetGroupField : Option String := none
  /-- The field of the weight of an edge. -/
  weightField : Option String := none
  /-- The field of the style of an edge. -/
  edgeStyleField : Option String := none
  /-- The field of the date of an edge. -/
  dateField : Option String := none
  /-- The field of the amount of an edge. -/
  amountField : Option String := none
  /-- The field of the number of transfers of an edge. -/
  countField : Option String := none
  /-- The field of the token of an edge. -/
  tokenField : Option String := none
  /-- The size of the smallest node. -/
  minNodeSize : Float := 10
  /-- The size of the largest node. -/
  maxNodeSize : Float := 50
  /-- The width of the thinnest edge. -/
  minEdgeWidth : Float := 1
  /-- The width of the thickest edge. -/
  maxEdgeWidth : Float := 8
  /-- Whether widths are measured against the ninetieth percentile. -/
  normalizeEdgeWidthToMax : Bool := true
  /-- The curvature between neighbouring edges of one direction. -/
  curveSeparation : Float := 0.15
  /-- The least curvature of edges that have counterparts in the other direction. -/
  directionOffset : Float := 0.15
  /-- The greatest curvature. -/
  maxCurvature : Float := 0.6
  /-- Names or ids of the nodes whose outgoing edges leave through anchors. -/
  boundaryAnchorSources : List String := []
  /-- The distance of an anchor from its node. -/
  anchorRadius : Float := 18
  /-- The angle between the anchors of edges with one target. -/
  anchorAngleSeparation : Float := 0.12
  /-- The radius of the circle that nodes start on. -/
  seedRadius : Float := 200
  /-- How far the best connected nodes start toward the middle. -/
  seedCentralityBlend : Float := 0.5
  /-- The number of links that counts as fully connected. -/
  seedCentralityCap : Float := 10
  /-- Colors of the edge styles, in the order of the styles. -/
  edgeStyleColors : List String := []

namespace NetworkOptions

/-- What the widths of edges are measured against. -/
def widthMeasure (options : NetworkOptions) : WidthMeasure :=
  if options.normalizeEdgeWidthToMax then .percentile90 else .minMax

end NetworkOptions

/-- Options of heatmaps. -/
structure HeatmapOptions where
  /-- The middle of a diverging color scale. -/
  visualMapCenter : Option Float := none
  /-- Whether the color scale ends at percentiles. -/
  usePercentileBounds : Bool := true
  /-- The lower percentile. -/
  lowerPercentile : Float := 5
  /-- The upper percentile. -/
  upperPercentile : Float := 95

/-- Options of box plots: the fields of the five numbers. -/
structure BoxplotOptions where
  /-- The field of the lower whisker. -/
  minField : Option String := none
  /-- The field of the first quartile. -/
  q1Field : Option String := none
  /-- The field of the median. -/
  medianField : Option String := none
  /-- The field of the third quartile. -/
  q3Field : Option String := none
  /-- The field of the upper whisker. -/
  maxField : Option String := none
  deriving DecidableEq, Repr

/-- Options of sunbursts. -/
structure SunburstOptions where
  /-- The field of the path of a node. -/
  pathField : Option String := none
  /-- What stands between the parts of a path. -/
  pathSeparator : Option String := none
  deriving DecidableEq, Repr

/-- Options of word clouds. -/
structure WordCloudOptions where
  /-- The field of the word. -/
  wordField : Option String := none
  /-- The greatest number of words kept. -/
  maxWords : Nat := 100
  /-- The length below which words are dropped. -/
  minWordLength : Nat := 2
  /-- The size of the smallest word. -/
  minFontSize : Float := 12
  /-- The size of the largest word. -/
  maxFontSize : Float := 60

/-- Options of pies. -/
structure PieOptions where
  /-- The greatest number of slices. -/
  maxSlices : Option Nat := none
  /-- Whether the middle is left open. -/
  donut : Bool := false
  deriving DecidableEq, Repr

/-- Options of quantile bands. -/
structure QuantileOptions where
  /-- The fields of the five quantiles, lowest first. -/
  quantileFields : List String := ["p05", "p25", "p50", "p75", "p95"]
  deriving DecidableEq, Repr

/-- A chart configuration. -/
structure Config where
  /-- The field of the category. -/
  xField : Option String := none
  /-- The field of the value. -/
  yField : Option String := none
  /-- The field that splits rows into series. -/
  seriesField : Option String := none
  /-- The field of the value, for charts without axes. -/
  valueField : Option String := none
  /-- The field of the name, for charts without axes. -/
  nameField : Option String := none
  /-- Whether lines are smooth. -/
  smooth : Bool := false
  /-- Whether series are stacked. -/
  stacked : Bool := false
  /-- Whether bars lie on their side. -/
  horizontal : Bool := false
  /-- Whether the chart can be zoomed. -/
  enableZoom : Bool := false
  /-- Whether marks carry their values. -/
  showLabels : Bool := false
  /-- Whether the chart is shown large. -/
  isExpanded : Bool := false
  /-- Colors of the series, before all others. -/
  colors : List String := []
  /-- Colors of the theme, after the colors of the series. -/
  palette : Option ThemePalette := none
  /-- The name of the format of values. -/
  format : Option String := none
  /-- The number of decimal places in tooltips. -/
  decimals : Option Nat := none
  /-- The magnitude from which on axis labels are short. -/
  compactThreshold : Option Float := none
  /-- How values of the same category and series become one. -/
  aggregation : Aggregation := .sum
  /-- What is laid over the finished option. -/
  overrides : Option Json := none
  /-- Options of networks. -/
  network : NetworkOptions := {}
  /-- Options of heatmaps. -/
  heatmap : HeatmapOptions := {}
  /-- Options of box plots. -/
  boxplot : BoxplotOptions := {}
  /-- Options of sunbursts. -/
  sunburst : SunburstOptions := {}
  /-- Options of word clouds. -/
  wordCloud : WordCloudOptions := {}
  /-- Options of pies. -/
  pie : PieOptions := {}
  /-- Options of quantile bands. -/
  quantile : QuantileOptions := {}

end ChartCompiler
