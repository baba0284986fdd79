import ChartCompiler.Axis.Categories
import ChartCompiler.Axis.Frame

/-!
# Quantile bands

Each category has five quantiles.  The bands between them are drawn as stacked areas: an invisible
base up to the lowest quantile, then the outer, the inner and again the outer band.  The median is
a line on top.
-/

set_option autoImplicit false

namespace ChartCompiler.QuantileBands

variable {α : Type} [Quantity α]

/-- The quantiles of all categories in display order. -/
structure Data (α : Type) where
  /-- The labels on the axis. -/
  labels : List String
  /-- The titles of the tooltips. -/
  titles : List String
  /-- The configured names of the quantiles, lowest first. -/
  names : List String
  /-- The five quantiles of each category. -/
  quantiles : List (FiveNumbers α)

/-- The names of the quantiles: those of the configuration if there are five, otherwise the
defaults. -/
def names (config : Config) : List String :=
  if config.quantile.quantileFields.length = 5 then config.quantile.quantileFields
  else ({} : QuantileOptions).quantileFields

/-- The fields of category and quantiles. -/
def fields? (rows : List Record) (config : Config) : Option (String × List String) := do
  let fields ← (names config).mapM fun name => findField rows (some name) []
  let category ← findField rows config.xField categoryNames
  return (category, fields)

/-- The quantiles of some records. -/
def ofRows (rows : List Record) (config : Config) : Data α :=
  match fields? rows config with
  | none => { labels := [], titles := [], names := [], quantiles := [] }
  | some (category, fields) =>
    let found : Summaries α := Summaries.ofRows category fields rows
    let shown := found.register.display
    { labels := shown.labels
      titles := shown.titles
      names := names config
      quantiles := pick shown.order found.summaries }

/-- The notices of `ofRows`. -/
def notices (rows : List Record) (config : Config) : List Notice :=
  let given := config.quantile.quantileFields.length
  let aboutNames : List Notice :=
    if given = 5 then []
    else
      [.warn ("quantileBands: expected 5 quantile fields, got " ++ naturalText given ++
        "; using the defaults")]
  let aboutRows : List Notice :=
    match fields? rows config with
    | none => [.debug "quantileBands: quantile fields not found"]
    | some (_, fields) =>
      List.replicate (Summaries.incompleteRows fields rows)
        (.trace "quantileBands: skipping row with missing quantiles")
  aboutNames ++ aboutRows

/-- The heights of the stacked parts of a category: the base, the lower outer band, the inner band
and the upper outer band. -/
def heights (numbers : FiveNumbers α) : List α :=
  [ numbers.lowest,
    numbers.lower - numbers.lowest,
    numbers.upper - numbers.lower,
    numbers.highest - numbers.upper ]

/-- The heights of one stacked part, category by category. -/
def part (position : Nat) (quantiles : List (FiveNumbers α)) : List α :=
  quantiles.filterMap fun numbers => (heights numbers)[position]?

/-! ## The option -/

/-- The members that all stacked parts have. -/
def stackMembers (name : String) (values : List Float) : List (String × Json) :=
  [ ("name", name),
    ("type", "line"),
    ("stack", "bands"),
    ("stackStrategy", "all"),
    ("symbol", "none"),
    ("silent", true),
    ("lineStyle", .record [("opacity", 0)]),
    ("data", .array (values.map Json.ofFloat)) ]

/-- The option of a visible band. -/
def band (color name : String) (values : List Float) (opacity : Float) : Json :=
  (Json.record (stackMembers name values)).set "areaStyle"
    (.record [("color", color), ("opacity", .ofFloat opacity)])

/-- The tooltip of a category: the quantiles from the highest to the lowest. -/
def tooltip (writer : TooltipWriter) (color : String) (names : List String) (title : String)
    (numbers : FiveNumbers Float) : String :=
  let lines := List.zipWith (fun name value => (name, writer.formatter.tooltip value))
    names numbers.toList
  writer.item title (some color) lines.reverse

/-- The name of the band between two quantiles. -/
def bandName (low high : String) : String :=
  low ++ "–" ++ high

/-- The option of quantile bands whose outer and inner band have these names. -/
def around (outer inner : String) (data : Data Float) (config : Config) (dark : Bool) : Json :=
  let formatter := ValueFormatter.ofConfig config
  let writer := TooltipWriter.forMode formatter dark
  let color := config.accent dark
  let layout := PlotLayout.ofConfig config true
  let median : Json := .record
    [ ("name", "Median"),
      ("type", "line"),
      ("symbol", "none"),
      ("smooth", config.smooth),
      ("lineStyle", .record [("color", color), ("width", 2)]),
      ("data", .array (data.quantiles.map fun numbers => .ofFloat numbers.middle)) ]
  let series :=
    [ Json.record (stackMembers "base" (part 0 data.quantiles)),
      band color outer (part 1 data.quantiles) 0.15,
      band color inner (part 2 data.quantiles) 0.35,
      band color outer (part 3 data.quantiles) 0.15,
      median ]
  let legend : Legend :=
    { entries :=
        [ LegendEntry.swatch outer color,
          LegendEntry.swatch inner color,
          LegendEntry.swatch "Median" color ] }
  let tooltips := List.zipWith (tooltip writer color data.names) data.titles data.quantiles
  let extent := Extent.of (data.quantiles.flatMap FiveNumbers.toList)
  .record
    [ ("backgroundColor", "transparent"),
      ("color", .strings [color]),
      ("grid", layout.grid.toJson),
      ("legend", legend.toJson dark),
      ("tooltip", axisTooltip tooltips false dark),
      ("xAxis", categoryAxis data.labels false dark),
      ("yAxis", valueAxis extent formatter dark),
      ("dataZoom", .array (layout.dataZoom dark .x)),
      ("series", .array series) ]

/-- The option of quantile bands, if there is anything to show. -/
def option? (data : Data Float) (config : Config) (dark : Bool) : Option Json :=
  if data.quantiles.isEmpty then none
  else
    let name := fun (position : Nat) => data.names.getD position ""
    some (around (bandName (name 0) (name 4)) (bandName (name 1) (name 3)) data config dark)

end ChartCompiler.QuantileBands
