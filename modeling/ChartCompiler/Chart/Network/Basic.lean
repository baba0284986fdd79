import ChartCompiler.Axis.Frame
import ChartCompiler.Chart.Network.Placement
import ChartCompiler.CompiledChart

/-!
# Networks

The option of a network is the start of a layout that a renderer carries on: nodes with sizes and
places, edges with widths and curvatures, anchors for the edges of hubs, and two legends.  The
legend of categories stands above the chart.  The legend of edge styles stands below it and is
backed by empty series that follow the live one.
-/

set_option autoImplicit false

namespace ChartCompiler.Network

/-! ## Styles -/

/-- The color and the pattern of an edge style. -/
structure EdgeStyle where
  /-- The style. -/
  name : String
  /-- The color. -/
  color : String
  /-- The pattern. -/
  pattern : LinePattern
  deriving DecidableEq, Repr

/-- Gives colors and patterns to styles in order. -/
def assignStyles (styles explicit theme : List String) : List EdgeStyle :=
  (styles.zip (chooseColors explicit theme styles.length)).zipIdx.map
    fun ((name, color), index) => { name, color, pattern := LinePattern.nth index }

/-- The legend of the edge styles. -/
def styleLegend (styles : List EdgeStyle) : Legend :=
  { entries := styles.map fun style => LegendEntry.line style.name style.color style.pattern
    side := .bottom }

/-- The empty series that carries the legend entry of a style. -/
def legendCarrier (style : EdgeStyle) : Json :=
  .record
    [ ("name", style.name),
      ("type", "graph"),
      ("silent", true),
      ("data", .array []),
      ("links", .array []),
      ("itemStyle", .record [("color", style.color)]),
      ("lineStyle", .record [("color", style.color), ("type", style.pattern.name)]) ]

/-! ## Nodes -/

/-- The id of an anchor. -/
def anchorId (graph : Graph Float) (position : Nat) (anchor : Anchor) : String :=
  ((graph.nodes[anchor.hub]?).map (·.id)).getD "" ++ "::anchor::" ++ naturalText position

/-- What all parts of a network are drawn with. -/
structure Drawing where
  /-- The graph. -/
  graph : Graph Float
  /-- The options. -/
  options : NetworkOptions
  /-- How tooltips are written. -/
  writer : TooltipWriter
  /-- The categories. -/
  categories : List String
  /-- The colors of the categories. -/
  colors : List String
  /-- The edge styles. -/
  styles : List EdgeStyle
  /-- The places where the nodes start. -/
  places : List Point
  /-- The anchors of the hubs. -/
  anchors : List Anchor

namespace Drawing

/-- The drawing of a graph under a configuration. -/
def of (graph : Graph Float) (config : Config) (dark : Bool) : Drawing :=
  let categories := graph.categories
  { graph
    options := config.network
    writer := TooltipWriter.forMode (ValueFormatter.ofConfig config) dark
    categories
    colors := config.seriesColors (max categories.length 1) dark
    styles := assignStyles graph.styles config.network.edgeStyleColors (config.themeColors dark)
    places := seeds config.network graph.nodes
    anchors := Network.anchors config.network graph }

/-- The position of the category of a node. -/
def categoryIndex? (drawing : Drawing) (node : Node Float) : Option Nat :=
  node.category.map fun category => drawing.categories.idxOf category

/-- The option of a node of some size and color. -/
def paintNode (drawing : Drawing) (node : Node Float) (place : Point) (size : Float)
    (color : String) (fixed : Bool) : Json :=
  let text := fun (value : Float) => drawing.writer.formatter.tooltip value
  let lines :=
    [ ("Inflow", text node.inValue),
      ("Outflow", text node.outValue),
      ("Net", text (node.inValue - node.outValue)) ]
  let base : Json := .record
    [ ("id", node.id),
      ("name", node.name),
      ("value", .ofFloat node.value),
      ("symbolSize", .ofFloat size),
      ("x", .ofFloat place.x),
      ("y", .ofFloat place.y),
      ("itemStyle", .record [("color", color)]),
      ("tooltip", formatted (drawing.writer.item node.name (some color) lines)) ]
  let grouped :=
    match drawing.categoryIndex? node with
    | some position => base.set "category" (.integer position)
    | none => base
  grouped.setIf fixed "fixed" true

/-- The option of a node. -/
def nodeItem (drawing : Drawing) (largestValue : Float) (node : Node Float) (place : Point) :
    Json :=
  drawing.paintNode node place (nodeSize node.value largestValue drawing.options)
    (drawing.colors.getD ((drawing.categoryIndex? node).getD 0) "") (isHub drawing.options node)

/-- The option of an anchor with some id. -/
def paintAnchor (id : String) (place : Point) : Json :=
  .record
    [ ("id", id),
      ("name", ""),
      ("symbolSize", 0),
      ("x", .ofFloat place.x),
      ("y", .ofFloat place.y),
      ("fixed", true),
      ("silent", true),
      ("label", .record [("show", false)]),
      ("tooltip", .record [("show", false)]) ]

/-- The option of an anchor. -/
def anchorItem (drawing : Drawing) (position : Nat) (anchor : Anchor) : Json :=
  paintAnchor (anchorId drawing.graph position anchor)
    (anchorPlace drawing.options drawing.graph drawing.places anchor)

/-- The options of all nodes, followed by those of the anchors. -/
def nodeItems (drawing : Drawing) : List Json :=
  let largestValue := drawing.graph.largestValue
  List.zipWith (drawing.nodeItem largestValue) drawing.graph.nodes drawing.places ++
    drawing.anchors.zipIdx.map fun (anchor, position) => drawing.anchorItem position anchor

/-! ## Edges -/

/-- The lines of the tooltip of an edge: its weight and whatever else it has. -/
def edgeFacts (drawing : Drawing) (edge : Edge Float) : List (String × String) :=
  let text := fun (value : Float) => drawing.writer.formatter.tooltip value
  let amount := edge.amount.toList.map fun amount => ("Amount", text amount)
  let count := edge.count.toList.map fun count => ("Transfers", groupedText count 0)
  let token := edge.token.toList.map fun token => ("Token", token)
  let date := edge.date.toList.map fun date => ("Date", date)
  ("Value", text edge.value) :: (amount ++ count ++ token ++ date)

/-- The position of the anchor that an edge leaves through. -/
def anchorOf? (drawing : Drawing) (position : Nat) : Option Nat :=
  drawing.anchors.findIdx? fun anchor => anchor.edge = position

/-- The name of a node. -/
def nodeName (drawing : Drawing) (position : Nat) : String :=
  ((drawing.graph.nodes[position]?).map (·.name)).getD ""

/-- The id of a node. -/
def nodeId (drawing : Drawing) (position : Nat) : String :=
  ((drawing.graph.nodes[position]?).map (·.id)).getD ""

/-- What an edge starts from: its anchor, or else its source. -/
def sourceId (drawing : Drawing) (position : Nat) (edge : Edge Float) : String :=
  match drawing.anchorOf? position with
  | some index =>
    ((drawing.anchors[index]?).map (anchorId drawing.graph index)).getD ""
  | none => drawing.nodeId edge.source

/-- The option of an edge between nodes with these ids and names. -/
def paintEdge (drawing : Drawing) (edge : Edge Float) (sourceId targetId source target : String)
    (width bend : Float) : Json :=
  let style := edge.style.bind fun name => drawing.styles.find? fun style => style.name = name
  let color := (style.map (·.color)).getD drawing.writer.theme.mutedText.css
  let pattern := (style.map (·.pattern.name)).getD "solid"
  let title := source ++ " → " ++ target
  let tooltip := drawing.writer.item title (some color) (drawing.edgeFacts edge)
  .record
    [ ("source", sourceId),
      ("target", targetId),
      ("value", .ofFloat edge.value),
      ("lineStyle", .record
        [ ("width", .ofFloat width),
          ("curveness", .ofFloat bend),
          ("color", color),
          ("type", pattern),
          ("opacity", .ofFloat 0.7) ]),
      ("tooltip", formatted tooltip) ]

/-- The option of an edge.  An edge that leaves through an anchor is straight. -/
def edgeItem (drawing : Drawing) (position : Nat) (edge : Edge Float) (width bend : Float) : Json :=
  drawing.paintEdge edge (drawing.sourceId position edge) (drawing.nodeId edge.target)
    (drawing.nodeName edge.source) (drawing.nodeName edge.target) width
    (if (drawing.anchorOf? position).isSome then 0 else bend)

/-- All edges with their styles. -/
def styledEdges (drawing : Drawing) : List StyledEdge :=
  let options := drawing.options
  let edges := drawing.graph.edges
  let widths := edgeWidths options.widthMeasure options.minEdgeWidth
    options.maxEdgeWidth (edges.map (·.value))
  let bends := curvatures (.ofOptions options) edges
  ((edges.zip widths).zip bends).zipIdx.map fun (((edge, width), bend), position) =>
    { style := edge.style, edge := drawing.edgeItem position edge width bend }

/-! ## The chart -/

/-- The legend of the categories. -/
def categoryLegend (drawing : Drawing) : Legend :=
  { entries := List.zipWith LegendEntry.swatch drawing.categories drawing.colors }

/-- The option of the legends: the legend of the categories, and that of the styles if there are
any. -/
def legend (drawing : Drawing) (dark : Bool) : Json :=
  let categories := drawing.categoryLegend.toJson dark
  if drawing.styles.isEmpty then categories
  else .array [categories, (styleLegend drawing.styles).toJson dark]

/-- The option of the series that shows the graph. -/
def liveSeries (drawing : Drawing) (config : Config) (nodes : List Json)
    (edges : List StyledEdge) : Json :=
  let theme := drawing.writer.theme
  .record
    [ ("type", "graph"),
      ("layout", "force"),
      ("roam", true),
      ("draggable", true),
      ("force", .record
        [ ("repulsion", if config.isExpanded then 260 else 180),
          ("edgeLength", .array [60, 180]),
          ("gravity", .ofFloat 0.08) ]),
      ("edgeSymbol", .strings ["none", "arrow"]),
      ("edgeSymbolSize", .array [0, 6]),
      ("categories", .array (drawing.categories.map fun (name : String) =>
        Json.record [("name", name)])),
      ("label", .record
        [ ("show", config.showLabels),
          ("position", "right"),
          ("color", theme.text.css),
          ("fontSize", 11) ]),
      ("emphasis", .record
        [ ("focus", "adjacency"), ("lineStyle", .record [("opacity", 1)]) ]),
      ("data", .array nodes),
      ("links", .array (edges.map (·.edge))) ]

/-- The chart of a drawing around its nodes and edges. -/
def around (drawing : Drawing) (nodes : List Json) (edges : List StyledEdge) (config : Config)
    (dark : Bool) : CompiledChart :=
  { option := .record
      [ ("backgroundColor", "transparent"),
        ("color", .strings drawing.colors),
        ("tooltip", itemTooltip dark),
        ("legend", drawing.legend dark),
        ("series", .array
          (drawing.liveSeries config nodes edges :: drawing.styles.map legendCarrier)) ]
    edgeBinding :=
      if drawing.styles.isEmpty then none else some { seriesIndex := 0, edges } }

/-- The chart of a drawing. -/
def toChart (drawing : Drawing) (config : Config) (dark : Bool) : CompiledChart :=
  drawing.around drawing.nodeItems drawing.styledEdges config dark

end Drawing

/-- The chart of a graph, if there is anything to show. -/
def chart? (graph : Graph Float) (config : Config) (dark : Bool) : Option CompiledChart :=
  if graph.edges.isEmpty then none
  else some ((Drawing.of graph config dark).toChart config dark)

/-- The notices of a chart with its data. -/
def notices (rows : List Record) (config : Config) : List Notice :=
  let graph : Graph Float := Graph.ofRows rows config
  Graph.notices rows config ++
    (if graph.edges.isEmpty then [] else anchorNotices config.network graph)

end ChartCompiler.Network
