import ChartCompiler.Chart.Network.Curvature
import ChartCompiler.Guide.Scale
import ChartCompiler.Statistics.Extent

/-!
# Sizes, widths and places

The size of a node follows its value, and the area of an edge follows its weight.  Nodes start on a
circle, the better connected ones nearer the middle.  The edges of a hub leave through anchors: one
pinned, invisible node for each edge, placed in the direction of its target.
-/

set_option autoImplicit false

namespace ChartCompiler.Network

variable {α : Type} [Quantity α]

/-! ## Sizes and widths -/

/-- The scale of sizes for values up to the largest one. -/
def sizeScale (largestValue : Float) (options : NetworkOptions) : Scale Float :=
  { domainStart := 0
    domainEnd := largestValue
    rangeStart := options.minNodeSize
    rangeEnd := options.maxNodeSize }

/-- The size of a node by its share of the largest value. -/
def nodeSize (value largestValue : Float) (options : NetworkOptions) : Float :=
  (sizeScale largestValue options).map value

/-- The range from zero to a percentile, or to the largest of some ascending weights when the
percentile is not positive. -/
def domainBelow (sorted : List α) (percentile : Option α) : Option (α × α) :=
  let high := percentile.filter fun value => decide (Quantity.zero < value)
  (high.or sorted.getLast?).map fun high => (Quantity.zero, high)

/-- What the widths of edges are measured against: the range of weights that is drawn from the
thinnest to the thickest edge. -/
def widthDomain (mode : WidthMeasure) (weights : List α) : Option (α × α) :=
  match mode with
  | .percentile90 =>
    let sorted := sortedFinite weights
    domainBelow sorted (percentile sorted (Quantity.ofNat 90))
  | .minMax => (Extent.of weights).map fun extent => (extent.min, extent.max)

/-- The scale of widths for weights from a low to a high one. -/
def widthScale (thinnest thickest low high : α) : RootScale α :=
  RootScale.of
    { domainStart := low, domainEnd := high, rangeStart := thinnest, rangeEnd := thickest }

/-- The width of all edges when the weights have no range: thick if any weight is positive. -/
def uniformWidth (thinnest thickest : α) (weights : List α) : α :=
  if weights.any fun weight => decide (Quantity.zero < weight) then thickest else thinnest

/-- The widths of edges between a thinnest and a thickest one. -/
def edgeWidths (mode : WidthMeasure) (thinnest thickest : α) (weights : List α) : List α :=
  let domain := (widthDomain mode weights).filter fun (low, high) => decide (low < high)
  match domain with
  | some (low, high) => weights.map (widthScale thinnest thickest low high).map
  | none => weights.map fun _ => uniformWidth thinnest thickest weights

/-! ## Places -/

/-- A point of the plane, or a direction. -/
structure Point where
  /-- The coordinate to the right. -/
  x : Float
  /-- The other coordinate. -/
  y : Float

namespace Point

/-- The direction at an angle. -/
def ofAngle (angle : Float) : Point := { x := angle.cos, y := angle.sin }

/-- The sum of two points. -/
def add (left right : Point) : Point := { x := left.x + right.x, y := left.y + right.y }

/-- The difference of two points. -/
def sub (left right : Point) : Point := { x := left.x - right.x, y := left.y - right.y }

/-- A point moved away from the middle by a factor. -/
def scale (point : Point) (factor : Float) : Point :=
  { x := point.x * factor, y := point.y * factor }

/-- The distance from the middle. -/
def length (point : Point) : Float :=
  (point.x * point.x + point.y * point.y).sqrt

/-- A direction turned by the angle of another direction. -/
def turn (direction angle : Point) : Point :=
  { x := direction.x * angle.x - direction.y * angle.y
    y := direction.x * angle.y + direction.y * angle.x }

/-- The direction from one point to another; to the right when they are the same. -/
def toward (start target : Point) : Point :=
  let difference := target.sub start
  if 0 < difference.length then difference.scale (1 / difference.length)
  else { x := 1, y := 0 }

end Point

/-- A full turn. -/
def fullTurn : Float := 6.283185307179586

/-- How central a node with some number of links is, from zero to one. -/
def centrality (options : NetworkOptions) (links : Nat) : Float :=
  if 0 < options.seedCentralityCap then
    Quantity.least (Float.ofNat links / options.seedCentralityCap) 1
  else
    0

/-- The place where a node starts: on the circle, moved toward the middle by its centrality as far
as the blend allows. -/
def seedAt (options : NetworkOptions) (blend : Float) (count index links : Nat) : Point :=
  let angle := fullTurn * Float.ofNat index / Float.ofNat count
  let onCircle := Point.add { x := 0, y := 0 } ((Point.ofAngle angle).scale options.seedRadius)
  let pull := blend * centrality options links
  { x := onCircle.x + pull * (0 - onCircle.x), y := onCircle.y + pull * (0 - onCircle.y) }

/-- The places where the nodes start. -/
def seeds (options : NetworkOptions) (nodes : List (Node α)) : List Point :=
  let blend := Quantity.clamp 0 1 options.seedCentralityBlend
  nodes.zipIdx.map fun (node, index) => seedAt options blend nodes.length index node.links

/-! ## Anchors -/

/-- An anchor: the place of one edge at its hub. -/
structure Anchor where
  /-- The position of the hub among the nodes. -/
  hub : Nat
  /-- The position of the edge. -/
  edge : Nat
  /-- The lane of the edge among those with the same hub and target. -/
  lane : Nat
  /-- The number of those lanes. -/
  lanes : Nat
  deriving DecidableEq, Repr

/-- Whether a node is named as a hub. -/
def isHub (options : NetworkOptions) (node : Node α) : Bool :=
  options.boundaryAnchorSources.any node.isNamed

/-- The targets of the edges that leave a node for other nodes, in the order of their ids. -/
def hubTargets (graph : Graph α) (hub : Nat) : List Nat :=
  let targets := (List.range graph.nodes.length).filter fun node =>
    decide (node ≠ hub) && graph.edges.any fun edge =>
      decide (edge.source = hub ∧ edge.target = node)
  targets.mergeSort fun left right =>
    decide (((graph.nodes[left]?).map (·.id)).getD "" ≤ ((graph.nodes[right]?).map (·.id)).getD "")

/-- The anchors of a hub: for each target a run of lanes, one for each edge. -/
def hubAnchors (graph : Graph α) (hub : Nat) : List Anchor :=
  (hubTargets graph hub).flatMap fun target =>
    let edges := lanes graph.edges hub target
    edges.zipIdx.map fun (edge, lane) => { hub, edge, lane, lanes := edges.length }

/-- The anchors of all hubs. -/
def anchors (options : NetworkOptions) (graph : Graph α) : List Anchor :=
  (List.range graph.nodes.length).flatMap fun position =>
    if (graph.nodes[position]?).any (isHub options) then hubAnchors graph position else []

/-- The place at a distance from a hub in the direction of a target, where lanes are spread by an
angle around that direction. -/
def lanePlace (options : NetworkOptions) (hub target : Point) (lane lastLane : Nat) : Point :=
  let unit := Point.toward hub target
  let middle := Float.ofNat lastLane / 2
  let turn := Point.ofAngle ((Float.ofNat lane - middle) * options.anchorAngleSeparation)
  hub.add ((unit.turn turn).scale options.anchorRadius)

/-- The place of an anchor. -/
def anchorPlace (options : NetworkOptions) (graph : Graph α) (places : List Point)
    (anchor : Anchor) : Point :=
  let origin : Point := { x := 0, y := 0 }
  let target := ((graph.edges[anchor.edge]?).map (·.target)).getD 0
  lanePlace options (places.getD anchor.hub origin) (places.getD target origin) anchor.lane
    (anchor.lanes - 1)

/-- The notice about anchors. -/
def anchorNotices (options : NetworkOptions) (graph : Graph α) : List Notice :=
  if options.boundaryAnchorSources.isEmpty then []
  else
    [.trace ("network: placed " ++ naturalText (anchors options graph).length ++
      " boundary anchors")]

end ChartCompiler.Network
