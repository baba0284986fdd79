import ChartCompiler.Axis.Frame

/-!
# Heatmaps

A heatmap is a pivot drawn as colored cells.  Its color scale ends at percentiles of the values, so
that a single extreme cell does not wash out the rest.  A configured center takes precedence: the
scale then reaches equally far to both sides of it and holds all values.
-/

set_option autoImplicit false

namespace ChartCompiler.Heatmap

variable {α : Type} [Quantity α]

/-- Whether two percentiles can bound a color scale. -/
def usableBounds (lower upper : α) : Bool :=
  decide (lower < upper)

/-- The ends of a color scale: around a center, at percentiles, or at the extent of the values. -/
def scaleBounds (values : List α) (center : Option α) (usePercentiles : Bool) (lower upper : α) :
    Option (Extent α) :=
  match Extent.of values with
  | none => none
  | some extent =>
    match center.filter Quantity.isFinite with
    | some center => some (extent.centeredOn center)
    | none =>
      if usePercentiles && usableBounds lower upper then percentileBounds values lower upper
      else some extent

/-- The notice about percentiles that cannot bound a color scale. -/
def boundNotices (values : List Float) (center : Option Float) (usePercentiles : Bool)
    (lower upper : Float) : List Notice :=
  if (Extent.of values).isSome && (center.filter Quantity.isFinite).isNone && usePercentiles &&
      !usableBounds lower upper then
    [.warn ("heatmap: ignoring percentile bounds " ++ floatText .plain lower ++ ".." ++
      floatText .plain upper)]
  else
    []

/-- The cells of a heatmap with their labels and the ends of the color scale. -/
structure Data (α : Type) where
  /-- The cells: one list for each row, with one entry for each column. -/
  pivot : Pivot α
  /-- The labels of the columns. -/
  columns : List String
  /-- The titles of the columns in tooltips. -/
  columnTitles : List String
  /-- The ends of the color scale. -/
  bounds : Extent α
  /-- Whether the color scale has a configured center. -/
  diverging : Bool

/-- Conventional names of the field of the rows. -/
def rowNames : List String :=
  ["series", "group", "weekday", "hour", "row"]

/-- The fields of columns, rows and values.  The field of the columns cannot be that of the
rows. -/
def fields? (rows : List Record) (config : Config) : Option PivotFields := do
  let column ← findField rows config.xField categoryNames
  let row ← (findField rows config.seriesField rowNames).filter (· ≠ column)
  let value ← findField rows (config.valueField.or config.yField) valueNames
  return { category := column, value, series := some row }

/-- The heatmap of a pivot in display order with the ends of its color scale. -/
def ofTimed (timed : TimedPivot α) (bounds : Extent α) (config : Config) : Data α :=
  { pivot := timed.pivot
    columns := timed.labels .axis
    columnTitles := timed.labels .tooltip
    bounds
    diverging := config.heatmap.visualMapCenter.isSome }

/-- The heatmap of some records, if any of them can be shown. -/
def ofRows (rows : List Record) (config : Config) : Option (Data α) := do
  let fields ← fields? rows config
  let timed : TimedPivot α := TimedPivot.build rows fields config.aggregation
  let options := config.heatmap
  if timed.pivot.isEmpty then none
  else
    let bounds ← scaleBounds timed.pivot.values (options.visualMapCenter.map Quantity.ofFloat)
      options.usePercentileBounds (Quantity.ofFloat options.lowerPercentile)
      (Quantity.ofFloat options.upperPercentile)
    return ofTimed timed bounds config

/-- The notices of `ofRows`. -/
def notices (rows : List Record) (config : Config) : List Notice :=
  match fields? rows config with
  | none => []
  | some fields =>
    let timed : TimedPivot Float := TimedPivot.build rows fields config.aggregation
    let options := config.heatmap
    Pivot.notices rows fields ++
      boundNotices timed.pivot.values options.visualMapCenter options.usePercentileBounds
        options.lowerPercentile options.upperPercentile

/-! ## The option -/

/-- The option of a cell. -/
def item (writer : TooltipWriter) (column row : Nat) (title : String) (value : Float) : Json :=
  .record
    [ ("value", .array [.integer column, .integer row, .ofFloat value]),
      ("label", formatted (writer.formatter.axis value)),
      ("tooltip", formatted
        (writer.item title none [("Value", writer.formatter.tooltip value)])) ]

/-- The title of the tooltip of a cell. -/
def itemTitle (column row : String) : String :=
  column ++ " · " ++ row

/-- The options of the present cells, row by row. -/
def items (data : Data Float) (writer : TooltipWriter) : List Json :=
  (data.pivot.series.zip data.pivot.cells).zipIdx.flatMap fun ((name, cells), row) =>
    (data.columnTitles.zip cells).zipIdx.filterMap fun ((column, cell), position) =>
      cell.map fun value => item writer position row (itemTitle column name) value

/-- The option of a heatmap around its cells. -/
def around (items : List Json) (data : Data Float) (config : Config) (dark : Bool) : Json :=
  let theme := Theme.forMode dark
  let formatter := ValueFormatter.ofConfig config
  let layout := PlotLayout.ofConfig config false
  let colors : List String :=
    if data.diverging then ["#2563EB", "#F3F4F6", "#DC2626"]
    else [theme.splitLine.css, config.accent dark]
  .record
    [ ("backgroundColor", "transparent"),
      ("grid", layout.grid.toJson.set "bottom" 56),
      ("tooltip", itemTooltip dark),
      ("xAxis", categoryAxis data.columns true dark),
      ("yAxis", categoryAxis data.pivot.series true dark),
      ("visualMap", .record
        [ ("type", "continuous"),
          ("min", .ofFloat data.bounds.min),
          ("max", .ofFloat data.bounds.max),
          ("calculable", true),
          ("orient", "horizontal"),
          ("left", "center"),
          ("bottom", 4),
          ("itemHeight", 120),
          ("text", .strings [formatter.axis data.bounds.max, formatter.axis data.bounds.min]),
          ("textStyle", .record [("color", theme.mutedText.css)]),
          ("inRange", .record [("color", .strings colors)]) ]),
      ("series", .array
        [ .record
          [ ("type", "heatmap"),
            ("data", .array items),
            ("label", .record [("show", config.showLabels), ("color", theme.text.css)]),
            ("itemStyle", .record
              [ ("borderWidth", 1), ("borderColor", theme.splitLine.css) ]),
            ("emphasis", .record
              [ ("itemStyle", .record [("borderColor", theme.text.css)]) ]) ] ]) ]

/-- The option of a heatmap. -/
def option (data : Data Float) (config : Config) (dark : Bool) : Json :=
  around (items data (.forMode (.ofConfig config) dark)) data config dark

end ChartCompiler.Heatmap
