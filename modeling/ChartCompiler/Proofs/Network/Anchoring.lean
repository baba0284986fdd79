import ChartCompiler.Proofs.Checked.Anchors

/-!
# Anchors and the edges that leave through them

Every edge that leaves a hub for another node gets an anchor of its own, and no other edge gets one.
Three tables are filled in one pass over the hubs: the anchors, the anchor of each edge, and whether
each node is pinned.  They stay in step (`Anchored`), since an edge has one source and one target
and so comes up for one hub, in one lane.  Ids tell nodes apart, so the edges to one target stand
together, and the runs of a hub are in the order of the ids of its targets.  The lanes of a run fan
out evenly around the direction of its target (`IsInLane`).
-/

set_option autoImplicit false

namespace ChartCompiler.Network

variable {α : Type} {graph : Graph α} {options : NetworkOptions} {hub target position : Nat}

/-! ## What is placed -/

/-- A node has the id or the name of a hub. -/
def NamesHub (options : NetworkOptions) (graph : Graph α) (position : Nat) : Prop :=
  ∃ node, graph.nodes[position]? = some node ∧
    ∃ label ∈ options.boundaryAnchorSources, node.id = label ∨ node.name = label

theorem any_isHub_iff :
    (graph.nodes[position]?).any (isHub options) = true ↔ NamesHub options graph position := by
  have named (node : Node α) : isHub options node = true ↔
      ∃ label ∈ options.boundaryAnchorSources, node.id = label ∨ node.name = label := by
    simp only [isHub, Node.isNamed, List.any_eq_true, Bool.or_eq_true, beq_iff_eq]
  simp only [Option.any_eq_true, named, NamesHub]

/-- What is placed for the hubs of a graph. -/
structure Anchoring where
  /-- The anchors with their places. -/
  anchors : List (Anchor × Point)
  /-- For each edge the position of the anchor that it leaves through. -/
  rerouted : List (Option Nat)
  /-- For each node whether it is pinned. -/
  pinned : List Bool

/-- The anchors of a graph whose nodes have places, and the edges and nodes they are for. -/
def Anchoring.of (options : NetworkOptions) (graph : Graph α) (places : List Point) : Anchoring :=
  { anchors := (Network.anchors options graph).map fun anchor =>
      (anchor, anchorPlace options graph places anchor)
    rerouted := (List.range graph.edges.length).map fun position =>
      (Network.anchors options graph).findIdx? fun anchor => anchor.edge = position
    pinned := graph.nodes.map (isHub options) }

theorem Anchoring.map_fst_anchors (options : NetworkOptions) (graph : Graph α)
    (places : List Point) :
    (Anchoring.of options graph places).anchors.map (·.1) = Network.anchors options graph := by
  rw [Anchoring.of, List.map_map]
  exact List.map_id _

/-- A drawing is made from the same tables. -/
theorem Drawing.anchoring_of (graph : Graph Float) (config : Config) (dark : Bool) :
    let drawing := Drawing.of graph config dark
    Anchoring.of drawing.options drawing.graph drawing.places =
      { anchors := drawing.anchors.map fun anchor =>
          (anchor, anchorPlace drawing.options drawing.graph drawing.places anchor)
        rerouted := (List.range drawing.graph.edges.length).map drawing.anchorOf?
        pinned := drawing.graph.nodes.map (isHub drawing.options) } := rfl

/-- `Anchoring.of` with its checks, a table after the other. -/
def Anchoring.ofChecked (options : NetworkOptions) (graph : Graph α) (places : List Point) :
    Checked Anchoring := do
  let anchors ← anchorsChecked options graph places
  let rerouted ← reroutedChecked (anchors.map (·.1)) graph.edges.length
  let pinned ← pinnedChecked (hubs options graph) graph.nodes.length
  return { anchors, rerouted, pinned }

theorem Anchoring.ofChecked_eq (distinct : (graph.nodes.map (·.id)).Nodup)
    (known : ∀ edge ∈ graph.edges, edge.target < graph.nodes.length) {places : List Point}
    (count : places.length = graph.nodes.length) :
    Anchoring.ofChecked options graph places = pure (Anchoring.of options graph places) := by
  have plain : ((Network.anchors options graph).map fun anchor =>
      (anchor, anchorPlace options graph places anchor)).map (·.1) =
        Network.anchors options graph := map_fst_anchors options graph places
  have inside : ∀ anchor ∈ Network.anchors options graph, anchor.edge < graph.edges.length := by
    intro anchor member
    obtain ⟨edge, here, -⟩ := hub_of_mem_anchors member
    exact (List.getElem?_eq_some_iff.mp here).1
  have flags : ((List.range graph.nodes.length).map fun position =>
      (graph.nodes[position]?).any (isHub options)) = graph.nodes.map (isHub options) := by
    apply List.ext_getElem
    · simp
    · intro position below below'
      have inside : position < graph.nodes.length := by simpa using below'
      simp [inside]
  rw [ofChecked, anchorsChecked_eq options distinct known count, pure_bind, plain,
    reroutedChecked_eq (nodup_map_edge_anchors options graph) inside, pure_bind, pinnedChecked_eq,
    pure_bind, flags]
  rfl

/-! ## Runs of anchors -/

/-- The anchors of the edges from a hub to a target: one for each of these edges, by style and then
by position, and each with its lane among them. -/
structure IsRun (graph : Graph α) (hub target : Nat) (run : List Anchor) : Prop where
  /-- The edges of the run are those from the hub to the target. -/
  edges : ∀ position, position ∈ run.map (·.edge) ↔
    ∃ edge, graph.edges[position]? = some edge ∧ edge.source = hub ∧ edge.target = target
  /-- They are ordered by style and then by position. -/
  ordered : (run.map (·.edge)).Pairwise fun first second =>
    laneKey graph.edges first < laneKey graph.edges second
  /-- The run is one group of lanes. -/
  lanes : ∀ (lane : Nat) (anchor : Anchor), run[lane]? = some anchor →
    anchor.hub = hub ∧ anchor.lane = lane ∧ anchor.lanes = run.length

/-- The anchors of the lanes from a hub to a target. -/
def laneAnchors (graph : Graph α) (hub target : Nat) : List Anchor :=
  (lanes graph.edges hub target).zipIdx.map fun (edge, lane) =>
    { hub, edge, lane, lanes := (lanes graph.edges hub target).length }

theorem hubAnchors_eq_flatMap (graph : Graph α) (hub : Nat) :
    hubAnchors graph hub = (hubTargets graph hub).flatMap (laneAnchors graph hub) := rfl

theorem map_edge_laneAnchors (graph : Graph α) (hub target : Nat) :
    (laneAnchors graph hub target).map (·.edge) = lanes graph.edges hub target := by
  rw [laneAnchors, List.map_map]
  exact List.zipIdx_map_fst _ _

theorem isRun_laneAnchors (graph : Graph α) (hub target : Nat) :
    IsRun graph hub target (laneAnchors graph hub target) := by
  constructor
  case edges =>
    intro position
    rw [map_edge_laneAnchors, mem_lanes]
  case ordered =>
    rw [map_edge_laneAnchors]
    exact pairwise_lanes graph.edges hub target
  case lanes =>
    intro lane anchor here
    simp only [laneAnchors, List.getElem?_map, List.getElem?_zipIdx, Option.map_map,
      Option.map_eq_some_iff] at here
    obtain ⟨edge, -, rfl⟩ := here
    exact ⟨rfl, Nat.zero_add lane, by simp [laneAnchors]⟩

theorem flatMap_eq_append_of_mem {β γ : Type} {items : List β} {item : β} (member : item ∈ items)
    (made : β → List γ) :
    ∃ before after, items.flatMap made = before ++ made item ++ after := by
  obtain ⟨front, back, rfl⟩ := List.append_of_mem member
  exact ⟨front.flatMap made, back.flatMap made, by simp⟩

/-- The anchors of the edges from a hub to a target stand together. -/
theorem anchors_eq_append_laneAnchors
    (known : ∀ edge ∈ graph.edges, edge.target < graph.nodes.length)
    (named : NamesHub options graph hub) (leaves : hub ≠ target) :
    ∃ before after,
      anchors options graph = before ++ laneAnchors graph hub target ++ after := by
  by_cases leads : target ∈ hubTargets graph hub
  · have atHub : hub ∈ hubs options graph := by
      refine List.mem_filter.mpr ⟨List.mem_range.mpr ?_, any_isHub_iff.mpr named⟩
      obtain ⟨node, here, -⟩ := named
      exact (List.getElem?_eq_some_iff.mp here).1
    obtain ⟨before, after, ofHub⟩ := flatMap_eq_append_of_mem atHub (hubAnchors graph)
    obtain ⟨before', after', toTarget⟩ := flatMap_eq_append_of_mem leads (laneAnchors graph hub)
    refine ⟨before ++ before', after' ++ after, ?_⟩
    rw [anchors_eq_flatMap_hubs, ofHub, hubAnchors_eq_flatMap, toTarget]
    simp only [List.append_assoc]
  · have nothing : lanes graph.edges hub target = [] := by
      refine List.eq_nil_iff_forall_not_mem.mpr fun position member => leads ?_
      obtain ⟨edge, here, starts, rfl⟩ := mem_lanes.mp member
      have present := List.mem_of_getElem? here
      exact mem_hubTargets.mpr ⟨known edge present, leaves.symm, edge, present, starts, rfl⟩
    exact ⟨[], anchors options graph, by simp [laneAnchors, nothing]⟩

/-! ## The order of the runs -/

/-- The id of the node that the edge of an anchor leads to. -/
def targetId (graph : Graph α) (anchor : Anchor) : String :=
  idAt graph (((graph.edges[anchor.edge]?).map (·.target)).getD 0)

theorem targetId_of_mem_laneAnchors {anchor : Anchor}
    (member : anchor ∈ laneAnchors graph hub target) :
    targetId graph anchor = idAt graph target := by
  obtain ⟨edge, here, -, rfl⟩ :=
    ((isRun_laneAnchors graph hub target).edges anchor.edge).mp (List.mem_map_of_mem member)
  rw [targetId, here]
  rfl

theorem hub_of_mem_hubAnchors {anchor : Anchor} (member : anchor ∈ hubAnchors graph hub) :
    anchor.hub = hub := by
  rw [hubAnchors_eq_flatMap] at member
  obtain ⟨target, -, atTarget⟩ := List.mem_flatMap.mp member
  obtain ⟨lane, here⟩ := List.mem_iff_getElem?.mp atTarget
  exact ((isRun_laneAnchors graph hub target).lanes lane anchor here).1

theorem pairwise_targetId_hubAnchors (graph : Graph α) (hub : Nat) :
    (hubAnchors graph hub).Pairwise fun first second =>
      targetId graph first ≤ targetId graph second := by
  rw [hubAnchors_eq_flatMap, List.pairwise_flatMap]
  refine ⟨fun target _ => ?_, (pairwise_hubTargets graph hub).imp ?_⟩
  · refine List.pairwise_of_forall_mem_list fun first here second there => ?_
    rw [targetId_of_mem_laneAnchors here, targetId_of_mem_laneAnchors there]
  · intro target target' ordered first here second there
    rwa [targetId_of_mem_laneAnchors here, targetId_of_mem_laneAnchors there]

theorem pairwise_targetId_anchors (options : NetworkOptions) (graph : Graph α) :
    (anchors options graph).Pairwise fun first second =>
      first.hub = second.hub → targetId graph first ≤ targetId graph second := by
  have once : (hubs options graph).Nodup := List.nodup_range.filter _
  rw [anchors_eq_flatMap_hubs, List.pairwise_flatMap]
  refine ⟨fun hub _ => ?_, once.imp ?_⟩
  · apply (pairwise_targetId_hubAnchors graph hub).imp
    intro first second ordered _
    exact ordered
  · intro hub hub' differ first here second there same
    rw [hub_of_mem_hubAnchors here, hub_of_mem_hubAnchors there] at same
    exact absurd same differ

/-! ## Places of anchors -/

/-- The direction from one point to another, of length one; to the right if there is no distance
between them. -/
def IsDirection (start target direction : Point) : Prop :=
  let right := target.x - start.x
  let up := target.y - start.y
  let distance := (right * right + up * up).sqrt
  (0 < distance → direction.x = right * (1 / distance) ∧ direction.y = up * (1 / distance)) ∧
    (¬ 0 < distance → direction.x = 1 ∧ direction.y = 0)

/-- A place in one of some lanes from a hub to a target: at the radius of the anchors, in the
direction of the target turned by as many separations as the lane is away from the middle one. -/
def IsInLane (options : NetworkOptions) (hub target : Point) (lane lanes : Nat) (place : Point) :
    Prop :=
  let angle := (Float.ofNat lane - Float.ofNat (lanes - 1) / 2) * options.anchorAngleSeparation
  ∃ direction, IsDirection hub target direction ∧
    place.x = hub.x +
      (direction.x * angle.cos - direction.y * angle.sin) * options.anchorRadius ∧
    place.y = hub.y +
      (direction.x * angle.sin + direction.y * angle.cos) * options.anchorRadius

theorem isDirection_toward (start target : Point) :
    IsDirection start target (Point.toward start target) := by
  constructor
  · intro apart
    have same : Point.toward start target =
        (target.sub start).scale (1 / (target.sub start).length) := if_pos apart
    rw [same]
    exact ⟨rfl, rfl⟩
  · intro together
    have same : Point.toward start target = { x := 1, y := 0 } := if_neg together
    rw [same]
    exact ⟨rfl, rfl⟩

theorem isInLane_lanePlace (options : NetworkOptions) (hub target : Point) (lane lanes : Nat) :
    IsInLane options hub target lane lanes (lanePlace options hub target lane (lanes - 1)) :=
  ⟨_, isDirection_toward hub target, rfl, rfl⟩

/-! ## Tables in step -/

/-- The tables of an anchoring fit each other, the graph, and the places of its nodes. -/
structure Anchored (options : NetworkOptions) (graph : Graph α) (places : List Point)
    (placed : Anchoring) : Prop where
  /-- There is an entry for every edge. -/
  edges : placed.rerouted.length = graph.edges.length
  /-- There is an entry for every node. -/
  nodes : placed.pinned.length = graph.nodes.length
  /-- An edge leaves through an anchor exactly when the anchor is made for that edge. -/
  paired : ∀ position index : Nat, placed.rerouted[position]? = some (some index) ↔
    (placed.anchors[index]?).map (fun entry => entry.1.edge) = some position
  /-- An edge leaves through an anchor exactly when it starts from a hub and is no loop. -/
  leaves : ∀ (position : Nat) (edge : Edge α), graph.edges[position]? = some edge →
    ((∃ index, placed.rerouted[position]? = some (some index)) ↔
      NamesHub options graph edge.source ∧ edge.source ≠ edge.target)
  /-- An anchor stands at the source of its edge. -/
  source : ∀ anchor ∈ placed.anchors.map (·.1),
    ∃ edge, graph.edges[anchor.edge]? = some edge ∧ edge.source = anchor.hub
  /-- An anchor is placed in its lane from its hub to the target of its edge. -/
  spread : ∀ anchor place, (anchor, place) ∈ placed.anchors →
    ∃ edge origin target, graph.edges[anchor.edge]? = some edge ∧
      places[anchor.hub]? = some origin ∧ places[edge.target]? = some target ∧
      IsInLane options origin target anchor.lane anchor.lanes place
  /-- A node is pinned exactly when it is a hub. -/
  pinned : ∀ position : Nat, placed.pinned[position]? = some true ↔ NamesHub options graph position
  /-- The edges from a hub to another node are a run of anchors, and no anchor elsewhere is for one
  of them. -/
  run : ∀ hub target, NamesHub options graph hub → hub ≠ target →
    ∃ before run after, placed.anchors.map (·.1) = before ++ run ++ after ∧
      IsRun graph hub target run ∧ ∀ anchor ∈ before ++ after, anchor.edge ∉ run.map (·.edge)
  /-- The runs of a hub are in the order of the ids of their targets. -/
  ordered : (placed.anchors.map (·.1)).Pairwise fun first second =>
    first.hub = second.hub → targetId graph first ≤ targetId graph second

/-- No two anchors are for one edge, so the search for the anchor of an edge finds it. -/
theorem findIdx?_edge_anchors {index : Nat} :
    (anchors options graph).findIdx? (fun anchor => anchor.edge = position) = some index ↔
      ((anchors options graph)[index]?).map (·.edge) = some position := by
  have own := nodup_map_edge_anchors options graph
  rw [List.findIdx?_eq_some_iff_getElem, ← List.getElem?_map]
  constructor
  · rintro ⟨below, same, -⟩
    simpa [below] using same
  · intro here
    obtain ⟨below, same⟩ := List.getElem?_eq_some_iff.mp here
    have below' : index < (anchors options graph).length := by simpa using below
    refine ⟨below', by simpa using same, fun earlier less => ?_⟩
    have apart := List.pairwise_iff_getElem.mp own earlier index (less.trans below) below less
    simpa [same] using apart

theorem getElem?_rerouted {places : List Point} {index : Nat} :
    (Anchoring.of options graph places).rerouted[position]? = some (some index) ↔
      ((anchors options graph)[index]?).map (·.edge) = some position := by
  rw [← findIdx?_edge_anchors, Anchoring.of, List.getElem?_map, Option.map_eq_some_iff]
  constructor
  · rintro ⟨place, here, found⟩
    obtain ⟨below, rfl⟩ := List.getElem?_eq_some_iff.mp here
    simpa using found
  · intro found
    refine ⟨position, ?_, found⟩
    obtain ⟨anchor, here, rfl⟩ := Option.map_eq_some_iff.mp (findIdx?_edge_anchors.mp found)
    obtain ⟨edge, present, -⟩ := hub_of_mem_anchors (List.mem_of_getElem? here)
    exact List.getElem?_range (List.getElem?_eq_some_iff.mp present).1

theorem anchored_of (known : ∀ edge ∈ graph.edges,
      edge.source < graph.nodes.length ∧ edge.target < graph.nodes.length)
    {places : List Point} (count : places.length = graph.nodes.length) :
    Anchored options graph places (Anchoring.of options graph places) := by
  have plain := Anchoring.map_fst_anchors options graph places
  constructor
  case edges => simp [Anchoring.of]
  case nodes => simp [Anchoring.of]
  case paired =>
    intro position index
    rw [getElem?_rerouted, ← plain, List.getElem?_map, Option.map_map]
    rfl
  case leaves =>
    intro position edge here
    have anchored : (∃ index,
        (Anchoring.of options graph places).rerouted[position]? = some (some index)) ↔
          position ∈ (anchors options graph).map (·.edge) := by
      simp only [getElem?_rerouted, ← List.getElem?_map, List.mem_iff_getElem?]
    rw [anchored, mem_map_edge_anchors known]
    simp only [here, Option.some.injEq, exists_eq_left', isRerouted, Bool.and_eq_true,
      any_isHub_iff, decide_eq_true_eq]
  case source =>
    rw [plain]
    intro anchor member
    exact hub_of_mem_anchors member
  case spread =>
    intro _ _ member
    obtain ⟨anchor, listed, same⟩ := List.mem_map.mp member
    obtain ⟨rfl, rfl⟩ := Prod.mk.inj same
    obtain ⟨edge, here, starts⟩ := hub_of_mem_anchors listed
    obtain ⟨source, target⟩ := known edge (List.mem_of_getElem? here)
    rw [← count] at source target
    rw [starts] at source
    refine ⟨edge, _, _, here, List.getElem?_eq_getElem source, List.getElem?_eq_getElem target, ?_⟩
    have placed : anchorPlace options graph places anchor = lanePlace options
        places[anchor.hub] places[edge.target] anchor.lane (anchor.lanes - 1) := by
      simp [anchorPlace, here, source, target]
    rw [placed]
    exact isInLane_lanePlace ..
  case pinned =>
    intro position
    rw [← any_isHub_iff, Anchoring.of, List.getElem?_map]
    cases graph.nodes[position]? <;> simp
  case run =>
    intro hub target named leaves
    obtain ⟨before, after, split⟩ :=
      anchors_eq_append_laneAnchors (fun edge member => (known edge member).2) named leaves
    refine ⟨before, laneAnchors graph hub target, after, plain.trans split,
      isRun_laneAnchors graph hub target, ?_⟩
    have own := nodup_map_edge_anchors options graph
    rw [split, List.map_append, List.map_append] at own
    obtain ⟨early, -, apart⟩ := List.nodup_append'.mp own
    have apart' := (List.nodup_append'.mp early).2.2
    intro anchor elsewhere inRun
    rcases List.mem_append.mp elsewhere with member | member
    · exact apart' (List.mem_map_of_mem member) inRun
    · exact apart (List.mem_append_right _ inRun) (List.mem_map_of_mem member)
  case ordered =>
    rw [plain]
    exact pairwise_targetId_anchors options graph

/-- **The anchors of a graph that is built from records, the edges they are for and the pinned
nodes stay in step.** -/
theorem ofRows_anchored (rows : List Record) (config : Config) (options : NetworkOptions)
    [Quantity α] :
    let graph : Graph α := Graph.ofRows rows config
    let placed := Anchoring.of options graph (seeds options graph.nodes)
    Anchoring.ofChecked options graph (seeds options graph.nodes) = pure placed ∧
      Anchored options graph (seeds options graph.nodes) placed := by
  intro graph placed
  have known : ∀ edge ∈ graph.edges,
      edge.source < graph.nodes.length ∧ edge.target < graph.nodes.length := ends_ofRows rows config
  have count : (seeds options graph.nodes).length = graph.nodes.length := by
    rw [seeds, List.length_map, List.length_zipIdx]
  refine ⟨?_, anchored_of known count⟩
  apply Anchoring.ofChecked_eq (nodup_ids_ofRows rows config) ?_ count
  intro edge member
  exact (known edge member).2

end ChartCompiler.Network
