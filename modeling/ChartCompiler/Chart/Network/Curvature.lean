import ChartCompiler.Chart.Network.Graph

/-!
# Curvature

Edges between the same two nodes are bent apart.  Seen from the node that comes first, edges that
lead away from it bend to one side and edges that lead to it bend to the other; within a direction
they are spread into lanes, in the order of their styles.  A renderer measures curvature along the
direction of each edge, so the sign is turned for the edges that lead back.
-/

set_option autoImplicit false

namespace ChartCompiler.Network

variable {α : Type} [Quantity α]

/-- Whether a style comes no later than another one; an edge without style comes first. -/
def styleLE : Option String → Option String → Bool
  | none, _ => true
  | some _, none => false
  | some left, some right => decide (left ≤ right)

/-- The positions of the edges from one node to another, by style and then in order. -/
def lanes (edges : List (Edge α)) (source target : Nat) : List Nat :=
  let found := edges.zipIdx.filter fun (edge, _) =>
    decide (edge.source = source ∧ edge.target = target)
  (found.mergeSort fun left right => styleLE left.1.style right.1.style).map (·.2)

/-- The options of curvature. -/
structure Bending (α : Type) where
  /-- The curvature between neighbouring lanes. -/
  separation : α
  /-- The least curvature of edges that have counterparts in the other direction. -/
  offset : α
  /-- The greatest curvature. -/
  limit : α

namespace Bending

/-- The options of a configuration. -/
def ofOptions (options : NetworkOptions) : Bending α :=
  { separation := Quantity.ofFloat options.curveSeparation
    offset := Quantity.ofFloat options.directionOffset
    limit := Quantity.ofFloat options.maxCurvature }

/-- The middle of the lanes of a direction: on the line between the nodes, or to one side of it
when there are edges in the other direction. -/
def base (bending : Bending α) (lastLane : Nat) (forward both : Bool) : α :=
  if both then
    let halfSpan := Quantity.ofNat lastLane * bending.separation / Quantity.ofNat 2
    if forward then bending.offset + halfSpan else -(bending.offset + halfSpan)
  else
    Quantity.zero

/-- The curvature that a lane asks for, as seen from the node that comes first. -/
def wanted (bending : Bending α) (lane lastLane : Nat) (forward both : Bool) : α :=
  let middle : α := Quantity.ofNat lastLane / Quantity.ofNat 2
  bending.base lastLane forward both + (Quantity.ofNat lane - middle) * bending.separation

/-- The curvature of a lane as seen from the node that comes first. -/
def canonical (bending : Bending α) (lane count : Nat) (forward both : Bool) : α :=
  let limit := Quantity.abs bending.limit
  Quantity.clamp (-limit) limit (bending.wanted lane (count - 1) forward both)

end Bending

/-- The curvature of an edge along its own direction. -/
def curvature (bending : Bending α) (edges : List (Edge α)) (position : Nat) (edge : Edge α) : α :=
  let forward := decide (edge.source ≤ edge.target)
  let both := decide (edge.source ≠ edge.target) &&
    edges.any fun other => decide (other.source = edge.target ∧ other.target = edge.source)
  let group := lanes edges edge.source edge.target
  let bend := bending.canonical (group.idxOf position) group.length forward both
  if forward then bend else -bend

/-- The curvatures of all edges. -/
def curvatures (bending : Bending α) (edges : List (Edge α)) : List α :=
  edges.zipIdx.map fun (edge, position) => curvature bending edges position edge

end ChartCompiler.Network
