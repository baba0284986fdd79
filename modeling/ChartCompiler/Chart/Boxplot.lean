import ChartCompiler.Axis.Categories
import ChartCompiler.Axis.Frame

/-!
# Box plots

Each row already holds the five numbers of its category; no samples are read.  Rows without all
five numbers are passed over, and the last row of a category counts.
-/

set_option autoImplicit false

namespace ChartCompiler.Boxplot

variable {α : Type} [Quantity α]

/-- The boxes of a plot in display order. -/
structure Data (α : Type) where
  /-- The labels on the axis. -/
  labels : List String
  /-- The titles of the tooltips. -/
  titles : List String
  /-- The five numbers of each category. -/
  boxes : List (FiveNumbers α)

/-- The fields of category and numbers. -/
def fields? (rows : List Record) (config : Config) : Option (String × List String) := do
  let options := config.boxplot
  let min ← findField rows options.minField ["min", "low", "lower", "p0"]
  let q1 ← findField rows options.q1Field ["q1", "p25", "lower_quartile"]
  let median ← findField rows options.medianField ["median", "p50", "q2"]
  let q3 ← findField rows options.q3Field ["q3", "p75", "upper_quartile"]
  let max ← findField rows options.maxField ["max", "high", "upper", "p100"]
  let category ← findField rows config.xField categoryNames
  return (category, [min, q1, median, q3, max])

/-- The boxes of some records. -/
def ofRows (rows : List Record) (config : Config) : Data α :=
  match fields? rows config with
  | none => { labels := [], titles := [], boxes := [] }
  | some (category, fields) =>
    let found : Summaries α := Summaries.ofRows category fields rows
    let shown := found.register.display
    { labels := shown.labels, titles := shown.titles, boxes := pick shown.order found.summaries }

/-- The notices of `ofRows`. -/
def notices (rows : List Record) (config : Config) : List Notice :=
  match fields? rows config with
  | none => [.debug "boxplot: quantile fields not found"]
  | some (_, fields) =>
    List.replicate (Summaries.incompleteRows fields rows)
      (.trace "boxplot: skipping row with missing quantiles")

/-! ## The option -/

/-- The tooltip of a box. -/
def tooltip (writer : TooltipWriter) (color title : String) (box : FiveNumbers Float) : String :=
  let text := fun (value : Float) => writer.formatter.tooltip value
  writer.item title (some color)
    [ ("Max", text box.highest),
      ("Q3", text box.upper),
      ("Median", text box.middle),
      ("Q1", text box.lower),
      ("Min", text box.lowest) ]

/-- The option of a box plot, if it has anything to show. -/
def option? (data : Data Float) (config : Config) (dark : Bool) : Option Json :=
  if data.boxes.isEmpty then none
  else
    let formatter := ValueFormatter.ofConfig config
    let writer := TooltipWriter.forMode formatter dark
    let color := config.accent dark
    let layout := PlotLayout.ofConfig config false
    let tooltips := List.zipWith (tooltip writer color) data.titles data.boxes
    let extent := Extent.of (data.boxes.flatMap FiveNumbers.toList)
    let boxes := data.boxes.map fun box => Json.array (box.toList.map Json.ofFloat)
    some <| .record
      [ ("backgroundColor", "transparent"),
        ("color", .strings [color]),
        ("grid", layout.grid.toJson),
        ("legend", ({} : Legend).toJson dark),
        ("tooltip", axisTooltip tooltips true dark),
        ("xAxis", categoryAxis data.labels true dark),
        ("yAxis", valueAxis extent formatter dark),
        ("dataZoom", .array (layout.dataZoom dark .x)),
        ("series", .array
          [ .record
            [ ("type", "boxplot"),
              ("data", .array boxes),
              ("boxWidth", .strings ["20%", "60%"]),
              ("itemStyle", .record
                [ ("color", .null), ("borderColor", color), ("borderWidth", .ofFloat 1.5) ]) ] ]) ]

end ChartCompiler.Boxplot
