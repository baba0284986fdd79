import ChartCompiler.Chart.Bar
import ChartCompiler.Chart.Boxplot
import ChartCompiler.Chart.Heatmap
import ChartCompiler.Chart.Kind
import ChartCompiler.Chart.Line
import ChartCompiler.Chart.Network.Basic
import ChartCompiler.Chart.Pie
import ChartCompiler.Chart.QuantileBands
import ChartCompiler.Chart.Radar
import ChartCompiler.Chart.Sankey.Basic
import ChartCompiler.Chart.Sunburst
import ChartCompiler.Chart.WordCloud
import ChartCompiler.Config.Reading
import ChartCompiler.Json.Overlay

/-!
# Compiling charts

A chart is compiled from rows and a configuration in three steps: the rows must be records, the
records must hold something that the kind of chart can show, and the overrides of the configuration
are laid over the option at the end.  Compilation never fails: whatever cannot be shown becomes
the chart without data.
-/

set_option autoImplicit false

namespace ChartCompiler

/-- Whether a value holds records, so that a chart can be tried. -/
def acceptsRows (rows : Json) : Bool :=
  match records rows with
  | .ok _ => true
  | .error _ => false

namespace ChartKind

/-- The chart of some records before overrides, if they hold anything that can be shown. -/
def chart? (kind : ChartKind) (rows : List Record) (config : Config) (dark : Bool) :
    Option CompiledChart :=
  let fromAxes := fun (option : AxisTable Float → Config → Bool → Json) =>
    (AxisTable.ofRows rows config).map fun data => CompiledChart.ofOption (option data config dark)
  match kind with
  | bar => fromAxes Bar.option
  | line => fromAxes (Line.option false)
  | area => fromAxes (Line.option true)
  | radar => fromAxes Radar.option
  | pie => (Pie.option? (Pie.ofRows rows config) config dark).map .ofOption
  | boxplot => (Boxplot.option? (Boxplot.ofRows rows config) config dark).map .ofOption
  | heatmap =>
    (Heatmap.ofRows rows config).map fun data => .ofOption (Heatmap.option data config dark)
  | sankey => (Sankey.option? (Sankey.ofRows rows config) config dark).map .ofOption
  | sunburst => (Sunburst.option? (Sunburst.ofRows rows config) config dark).map .ofOption
  | wordCloud => (WordCloud.option? (WordCloud.ofRows rows config) config dark).map .ofOption
  | quantileBands =>
    (QuantileBands.option? (QuantileBands.ofRows rows config) config dark).map .ofOption
  | network => Network.chart? (Network.Graph.ofRows rows config) config dark

/-- The notices of `chart?`. -/
def chartNotices (kind : ChartKind) (rows : List Record) (config : Config) : List Notice :=
  match kind with
  | bar | line | area | radar => AxisTable.notices rows config
  | pie | sunburst => []
  | boxplot => Boxplot.notices rows config
  | heatmap => Heatmap.notices rows config
  | sankey => Sankey.notices rows config
  | wordCloud => WordCloud.notices rows config
  | quantileBands => QuantileBands.notices rows config
  | network => Network.notices rows config

/-- Compiles rows under a configuration. -/
def compile (kind : ChartKind) (rows : Json) (config : Config) (dark : Bool) : CompiledChart :=
  match records rows with
  | .error _ => .empty dark
  | .ok rows =>
    match kind.chart? rows config dark with
    | none => .empty dark
    | some chart =>
      match config.overrides with
      | none => chart
      | some overrides => { chart with option := Json.overlay chart.option overrides }

/-- The notices of `compile`. -/
def notices (kind : ChartKind) (rows : Json) (config : Config) : List Notice :=
  match records rows with
  | .error error => [.debug (kind.key ++ ": " ++ error.message)]
  | .ok rows =>
    let aboutData := kind.chartNotices rows config
    match kind.chart? rows config false with
    | some _ => aboutData
    | none =>
      aboutData ++
        [.debug (kind.key ++ ": no plottable data in " ++ naturalText rows.length ++ " rows")]

end ChartKind

/-- The notices of reading a configuration. -/
def Config.notices : Json → List Notice
  | .null => []
  | .object members =>
    (Config.rejectedKeys members).map fun key =>
      .warn ("ignoring chart config key `" ++ key ++ "`")
  | _ => [.warn "ignoring chart config that is not an object"]

/-- Compiles rows under a configuration given as data, for the kind that a text names.  An unknown
kind gives the chart without data. -/
def compileChart (key : String) (rows config : Json) (dark : Bool) : CompiledChart :=
  match ChartKind.ofKey? key with
  | none => .empty dark
  | some kind => kind.compile rows (Config.ofJson config) dark

/-- The notices of `compileChart`. -/
def compileNotices (key : String) (rows config : Json) : List Notice :=
  match ChartKind.ofKey? key with
  | none => [.warn ("no processor registered for chart type `" ++ key ++ "`")]
  | some kind => Config.notices config ++ kind.notices rows (Config.ofJson config)

end ChartCompiler
