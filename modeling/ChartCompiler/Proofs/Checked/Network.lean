import ChartCompiler.Proofs.Axis.Alignment
import ChartCompiler.Proofs.Checked.Anchors
import ChartCompiler.Proofs.Checked.Curvature
import ChartCompiler.Proofs.Checked.Graph
import ChartCompiler.Proofs.Checked.Scalar

/-!
# Networks with their checks

Nodes and edges are drawn by position: the color of a node is that of its category, and what an edge
starts from, its width and its curvature are read from tables with one row for each edge.  A drawing
in which these parts fit together (`Fits`) is drawn without a fault.
-/

set_option autoImplicit false

namespace ChartCompiler.Network

/-! ## Scales of a network -/

def nodeSizeChecked (value largestValue : Float) (options : NetworkOptions) : Checked Float :=
  (sizeScale largestValue options).mapChecked value

theorem nodeSizeChecked_eq (value largestValue : Float) (options : NetworkOptions) :
    nodeSizeChecked value largestValue options = pure (nodeSize value largestValue options) :=
  Scale.mapChecked_eq _ value

def widthDomainChecked (mode : WidthMeasure) (weights : List Float) :
    Checked (Option (Float × Float)) :=
  match mode with
  | .percentile90 => do
    let sorted := sortedFinite weights
    return domainBelow sorted (← percentileChecked sorted (Quantity.ofNat 90))
  | .minMax => pure ((Extent.of weights).map fun extent => (extent.min, extent.max))

theorem widthDomainChecked_eq (mode : WidthMeasure) (weights : List Float) :
    widthDomainChecked mode weights = pure (widthDomain mode weights) := by
  cases mode with
  | percentile90 => simp only [widthDomainChecked, percentileChecked_eq, pure_bind, widthDomain]
  | minMax => rfl

def edgeWidthsChecked (mode : WidthMeasure) (thinnest thickest : Float) (weights : List Float) :
    Checked (List Float) := do
  let domain ← widthDomainChecked mode weights
  match domain.filter fun (low, high) => decide (low < high) with
  | some (low, high) => weights.mapM (widthScale thinnest thickest low high).mapChecked
  | none => pure (weights.map fun _ => uniformWidth thinnest thickest weights)

theorem edgeWidthsChecked_eq (mode : WidthMeasure) (thinnest thickest : Float)
    (weights : List Float) :
    edgeWidthsChecked mode thinnest thickest weights =
      pure (edgeWidths mode thinnest thickest weights) := by
  rw [edgeWidthsChecked, widthDomainChecked_eq, pure_bind, edgeWidths]
  cases (widthDomain mode weights).filter fun (low, high) => decide (low < high) with
  | none => rfl
  | some domain => exact Checked.mapM_eq fun weight _ => RootScale.mapChecked_eq _ weight

def seedsChecked (options : NetworkOptions) (nodes : List (Node Float)) :
    Checked (List Point) := do
  let blend ← Checked.clamp 0 1 options.seedCentralityBlend
  return nodes.zipIdx.map fun (node, index) =>
    seedAt options blend nodes.length index node.links

theorem seedsChecked_eq (options : NetworkOptions) (nodes : List (Node Float)) :
    seedsChecked options nodes = pure (seeds options nodes) := by
  have ordered : (0 : Float) ≤ 1 := by decide
  rw [seedsChecked, Checked.clamp_eq ordered, pure_bind]
  rfl

def assignStylesChecked (styles explicit theme : List String) : Checked (List EdgeStyle) := do
  let colors ← chooseColorsChecked explicit theme styles.length
  (styles.zip colors).zipIdx.mapM fun ((name, color), index) => do
    return { name, color, pattern := ← LinePattern.nthChecked index }

theorem assignStylesChecked_eq (styles explicit theme : List String) :
    assignStylesChecked styles explicit theme = pure (assignStyles styles explicit theme) := by
  rw [assignStylesChecked, chooseColorsChecked_eq, pure_bind]
  refine Checked.mapM_eq fun ((name, color), index) _ => ?_
  simp only [LinePattern.nthChecked_eq, pure_bind]

/-- The range that curvatures are clamped to is a range. -/
def Bounded (options : NetworkOptions) : Prop :=
  -Quantity.abs (Bending.ofOptions options : Bending Float).limit ≤
    Quantity.abs (Bending.ofOptions options : Bending Float).limit

namespace Drawing

variable {drawing : Drawing}

/-! ## Nodes -/

/-- `nodeItem` with its checks, of the node at a position. -/
def nodeItemChecked (drawing : Drawing) (pinned : List Bool) (largestValue : Float)
    (node : Node Float) (place : Point) (position : Nat) : Checked Json := do
  let color ← Checked.item drawing.colors ((drawing.categoryIndex? node).getD 0)
  let size ← nodeSizeChecked node.value largestValue drawing.options
  let fixed ← Checked.item pinned position
  return drawing.paintNode node place size color fixed

/-- The id of the anchor at a position. -/
def anchorIdChecked (drawing : Drawing) (index : Nat) : Checked String := do
  let anchor ← Checked.item drawing.anchors index
  let hub ← Checked.item drawing.graph.nodes anchor.hub
  return hub.id ++ "::anchor::" ++ naturalText index

def nodeItemsChecked (drawing : Drawing) (placed : List (Anchor × Point)) :
    Checked (List Json) := do
  let graph := drawing.graph
  let pinned ← pinnedChecked (hubs drawing.options graph) graph.nodes.length
  let nodes ← (graph.nodes.zip drawing.places).zipIdx.mapM fun ((node, place), position) =>
    drawing.nodeItemChecked pinned graph.largestValue node place position
  let anchors ← placed.zipIdx.mapM fun ((_, place), index) => do
    return paintAnchor (← drawing.anchorIdChecked index) place
  return nodes ++ anchors

/-- The parts of a drawing that are read by position are there. -/
structure Fits (drawing : Drawing) : Prop where
  /-- Edges lead from nodes to nodes. -/
  ends : ∀ edge ∈ drawing.graph.edges,
    edge.source < drawing.graph.nodes.length ∧ edge.target < drawing.graph.nodes.length
  /-- Every node has a place. -/
  places : drawing.places.length = drawing.graph.nodes.length
  /-- Every node has a color. -/
  colors : ∀ node ∈ drawing.graph.nodes,
    (drawing.categoryIndex? node).getD 0 < drawing.colors.length
  /-- The anchors are those of the hubs. -/
  anchors : drawing.anchors = Network.anchors drawing.options drawing.graph

theorem fits_of {graph : Graph Float}
    (ends : ∀ edge ∈ graph.edges,
      edge.source < graph.nodes.length ∧ edge.target < graph.nodes.length)
    (config : Config) (dark : Bool) : (Drawing.of graph config dark).Fits := by
  constructor
  case ends => exact ends
  case places => simp [Drawing.of, seeds]
  case anchors => rfl
  case colors =>
    intro node member
    have count : (Drawing.of graph config dark).colors.length = max graph.categories.length 1 :=
      length_seriesColors config _ dark
    rw [count, categoryIndex?]
    cases category : node.category with
    | none => exact lt_max_of_lt_right Nat.zero_lt_one
    | some category' =>
        have known : category' ∈ graph.categories :=
          mem_distinct.mpr (List.mem_filterMap.mpr ⟨node, member, category⟩)
        exact lt_max_of_lt_left (List.idxOf_lt_length_of_mem known)

theorem Fits.hub_lt (fits : drawing.Fits) {anchor : Anchor} (member : anchor ∈ drawing.anchors) :
    anchor.hub < drawing.graph.nodes.length := by
  rw [fits.anchors] at member
  obtain ⟨edge, here, starts⟩ := hub_of_mem_anchors member
  exact starts ▸ (fits.ends edge (List.mem_of_getElem? here)).1

theorem Fits.edge_lt (fits : drawing.Fits) {anchor : Anchor} (member : anchor ∈ drawing.anchors) :
    anchor.edge < drawing.graph.edges.length := by
  rw [fits.anchors] at member
  obtain ⟨edge, here, -⟩ := hub_of_mem_anchors member
  exact (List.getElem?_eq_some_iff.mp here).1

theorem anchorIdChecked_eq (fits : drawing.Fits) {index : Nat} {anchor : Anchor}
    (here : drawing.anchors[index]? = some anchor) :
    drawing.anchorIdChecked index = pure (anchorId drawing.graph index anchor) := by
  have inside := fits.hub_lt (List.mem_of_getElem? here)
  rw [anchorIdChecked, Checked.item_eq here, pure_bind, Checked.item_of_lt inside, pure_bind,
    anchorId, List.getElem?_eq_getElem inside]
  rfl

/-- The anchors with their places. -/
def placed (drawing : Drawing) : List (Anchor × Point) :=
  drawing.anchors.map fun anchor =>
    (anchor, anchorPlace drawing.options drawing.graph drawing.places anchor)

theorem nodeItemsChecked_eq (fits : drawing.Fits) :
    drawing.nodeItemsChecked drawing.placed = pure drawing.nodeItems := by
  have nodes : (drawing.graph.nodes.zip drawing.places).zipIdx.mapM
      (fun ((node, place), position) => drawing.nodeItemChecked
        ((List.range drawing.graph.nodes.length).map fun position =>
          (drawing.graph.nodes[position]?).any (isHub drawing.options))
        drawing.graph.largestValue node place position) =
      pure (List.zipWith (drawing.nodeItem drawing.graph.largestValue) drawing.graph.nodes
        drawing.places) := by
    refine Checked.mapM_ext _ (by simp) fun position here here' => ?_
    have inside : position < drawing.graph.nodes.length := by simp at here'; omega
    have colored := fits.colors _ (List.getElem_mem inside)
    simp only [List.getElem_zipIdx, List.getElem_zip, List.getElem_zipWith, Nat.zero_add,
      nodeItemChecked, Checked.item_getD colored "", nodeSizeChecked_eq,
      Checked.item_table inside, List.getElem?_eq_getElem inside, Option.any_some, pure_bind]
    rfl
  have anchors : drawing.placed.zipIdx.mapM (fun ((_, place), index) => do
      return paintAnchor (← drawing.anchorIdChecked index) place) =
      pure (drawing.anchors.zipIdx.map fun entry => drawing.anchorItem entry.2 entry.1) := by
    refine Checked.mapM_ext _ (by simp [placed]) fun index here here' => ?_
    have inside : index < drawing.anchors.length := by simpa using here'
    simp only [placed, List.getElem_zipIdx, List.getElem_map, Nat.zero_add,
      anchorIdChecked_eq fits (List.getElem?_eq_getElem inside), pure_bind]
    rfl
  rw [nodeItemsChecked, pinnedChecked_eq, pure_bind, nodes, pure_bind, anchors]
  rfl

/-! ## Edges -/

/-- What the edge at a position starts from, and its curvature. -/
def startChecked (drawing : Drawing) (rerouted : List (Option Nat)) (bends : List Float)
    (position : Nat) (edge : Edge Float) : Checked (String × Float) := do
  match ← Checked.item rerouted position with
  | some index => return (← drawing.anchorIdChecked index, 0)
  | none =>
    let source ← Checked.item drawing.graph.nodes edge.source
    return (source.id, ← Checked.item bends position)

/-- `edgeItem` with its checks, and the style of the edge. -/
def edgeItemChecked (drawing : Drawing) (rerouted : List (Option Nat)) (widths bends : List Float)
    (position : Nat) (edge : Edge Float) : Checked StyledEdge := do
  let (sourceId, bend) ← drawing.startChecked rerouted bends position edge
  let source ← Checked.item drawing.graph.nodes edge.source
  let target ← Checked.item drawing.graph.nodes edge.target
  let width ← Checked.item widths position
  return {
    style := edge.style
    edge := drawing.paintEdge edge sourceId target.id source.name target.name width bend }

def styledEdgesChecked (drawing : Drawing) : Checked (List StyledEdge) := do
  let options := drawing.options
  let edges := drawing.graph.edges
  let widths ← edgeWidthsChecked options.widthMeasure options.minEdgeWidth options.maxEdgeWidth
    (edges.map (·.value))
  let bends ← curvaturesChecked (.ofOptions options) edges
  let rerouted ← reroutedChecked drawing.anchors edges.length
  edges.zipIdx.mapM fun (edge, position) =>
    drawing.edgeItemChecked rerouted widths bends position edge

theorem startChecked_eq (fits : drawing.Fits) {bends : List Float} {position : Nat}
    (inside : position < drawing.graph.edges.length) (bent : position < bends.length) :
    drawing.startChecked ((List.range drawing.graph.edges.length).map drawing.anchorOf?) bends
        position drawing.graph.edges[position] =
      pure (drawing.sourceId position drawing.graph.edges[position],
        if (drawing.anchorOf? position).isSome then 0 else bends[position]) := by
  rw [startChecked, Checked.item_table inside, pure_bind]
  cases found : drawing.anchorOf? position with
  | some index =>
      obtain ⟨anchor, here, -⟩ := anchorOf?_eq_some found
      simp only [anchorIdChecked_eq fits here, pure_bind, sourceId, found, here]
      rfl
  | none =>
      have source := (fits.ends _ (List.getElem_mem inside)).1
      simp only [Checked.item_of_lt source, Checked.item_of_lt bent, pure_bind, sourceId, found,
        nodeId, List.getElem?_eq_getElem source]
      rfl

theorem styledEdgesChecked_eq (fits : drawing.Fits) (bounded : Bounded drawing.options) :
    drawing.styledEdgesChecked = pure drawing.styledEdges := by
  have own : (drawing.anchors.map (·.edge)).Nodup :=
    fits.anchors ▸ nodup_map_edge_anchors drawing.options drawing.graph
  have rerouted : reroutedChecked drawing.anchors drawing.graph.edges.length =
      pure ((List.range drawing.graph.edges.length).map drawing.anchorOf?) :=
    reroutedChecked_eq own fun _ => fits.edge_lt
  rw [styledEdgesChecked]
  simp only [edgeWidthsChecked_eq, curvaturesChecked_eq bounded, rerouted, pure_bind]
  refine Checked.mapM_ext _ (by simp [length_styledEdges]) fun position here here' => ?_
  have inside : position < drawing.graph.edges.length := by simpa using here
  have wide : position < (edgeWidths drawing.options.widthMeasure drawing.options.minEdgeWidth
      drawing.options.maxEdgeWidth (drawing.graph.edges.map (·.value))).length := by
    rw [length_edgeWidths, List.length_map]
    exact inside
  have bent : position < (curvatures (Bending.ofOptions drawing.options)
      drawing.graph.edges).length := by
    rw [length_curvatures]
    exact inside
  have ends := fits.ends _ (List.getElem_mem inside)
  have start := startChecked_eq fits inside bent
  simp only [List.getElem_zipIdx, Nat.zero_add, edgeItemChecked]
  rw [start, pure_bind, Checked.item_of_lt ends.1, pure_bind, Checked.item_of_lt ends.2, pure_bind,
    Checked.item_of_lt wide, pure_bind]
  simp only [styledEdges, List.getElem_map, List.getElem_zipIdx, List.getElem_zip, Nat.zero_add,
    edgeItem, nodeId, nodeName, List.getElem?_eq_getElem ends.1, List.getElem?_eq_getElem ends.2,
    Option.map_some, Option.getD_some]

/-! ## The chart -/

/-- `Drawing.of` with its checks, and the anchors with their places. -/
def ofChecked (graph : Graph Float) (config : Config) (dark : Bool) :
    Checked (Drawing × List (Anchor × Point)) := do
  let categories := graph.categories
  let colors ← config.seriesColorsChecked (max categories.length 1) dark
  let places ← seedsChecked config.network graph.nodes
  let placed ← anchorsChecked config.network graph places
  let styles ← assignStylesChecked graph.styles config.network.edgeStyleColors
    (config.themeColors dark)
  let drawing : Drawing :=
    { graph
      options := config.network
      writer := TooltipWriter.forMode (ValueFormatter.ofConfig config) dark
      categories
      colors
      styles
      places
      anchors := placed.map (·.1) }
  return (drawing, placed)

theorem ofChecked_eq {graph : Graph Float} (distinct : (graph.nodes.map (·.id)).Nodup)
    (ends : ∀ edge ∈ graph.edges,
      edge.source < graph.nodes.length ∧ edge.target < graph.nodes.length)
    (config : Config) (dark : Bool) :
    ofChecked graph config dark =
      pure (Drawing.of graph config dark, (Drawing.of graph config dark).placed) := by
  have places : (seeds config.network graph.nodes).length = graph.nodes.length := by simp [seeds]
  simp only [ofChecked, Config.seriesColorsChecked_eq, seedsChecked_eq, assignStylesChecked_eq,
    anchorsChecked_eq config.network distinct (fun edge member => (ends edge member).2) places,
    pure_bind, List.map_map]
  refine congrArg (fun anchors => pure (({ Drawing.of graph config dark with anchors } : Drawing),
    (Drawing.of graph config dark).placed)) ?_
  exact List.map_id _

end Drawing

def chartChecked (graph : Graph Float) (config : Config) (dark : Bool) :
    Checked (Option CompiledChart) :=
  if graph.edges.isEmpty then pure none
  else do
    let (drawing, placed) ← Drawing.ofChecked graph config dark
    let nodes ← drawing.nodeItemsChecked placed
    let edges ← drawing.styledEdgesChecked
    return some (drawing.around nodes edges config dark)

/-- **The graph of some records is drawn without a fault.** -/
theorem chartChecked_eq {config : Config} (bounded : Bounded config.network) (rows : List Record)
    (dark : Bool) :
    chartChecked (Graph.ofRows rows config) config dark =
      pure (chart? (Graph.ofRows rows config) config dark) := by
  have ends := @ends_ofRows Float _ rows config
  have fits := Drawing.fits_of ends config dark
  rw [chartChecked, chart?]
  split
  · rfl
  · rw [Drawing.ofChecked_eq (nodup_ids_ofRows rows config) ends, pure_bind]
    simp only
    rw [Drawing.nodeItemsChecked_eq fits, pure_bind,
      Drawing.styledEdgesChecked_eq fits bounded, pure_bind]
    rfl

end ChartCompiler.Network
