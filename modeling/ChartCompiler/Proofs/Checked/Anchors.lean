import ChartCompiler.Proofs.Checked.Operation
import ChartCompiler.Proofs.Network.Lanes
import Mathlib.Data.List.SplitBy

/-!
# Anchors with their checks

The edges that leave a hub are sorted as a whole, by the id of the target, then by style and then by
position, and the sorted edges are cut into runs with one target.  Ids tell nodes apart, so there
is one run for each target, in the order of the targets, and a run is what the lanes to that target
are.  No run is empty, so each has a first edge and a last lane.
-/

set_option autoImplicit false

namespace ChartCompiler.Network

variable {α : Type} {graph : Graph α} {hub target position : Nat}

/-! ## Targets -/

/-- The id of the node at a position. -/
def idAt (graph : Graph α) (position : Nat) : String :=
  ((graph.nodes[position]?).map (·.id)).getD ""

theorem pairwise_hubTargets (graph : Graph α) (hub : Nat) :
    (hubTargets graph hub).Pairwise fun first second => idAt graph first ≤ idAt graph second :=
  haveI : Std.Total fun first second => idAt graph first ≤ idAt graph second :=
    ⟨fun _ _ => le_total _ _⟩
  haveI : IsTrans Nat fun first second => idAt graph first ≤ idAt graph second :=
    ⟨fun _ _ _ => le_trans⟩
  List.pairwise_mergeSort' (fun first second => idAt graph first ≤ idAt graph second) _

/-- Ids tell nodes apart. -/
theorem idAt_ne (distinct : (graph.nodes.map (·.id)).Nodup) {first second : Nat}
    (inside : first < graph.nodes.length) (inside' : second < graph.nodes.length)
    (differ : first ≠ second) : idAt graph first ≠ idAt graph second := by
  intro same
  have ids (position : Nat) (inside : position < graph.nodes.length) :
      (graph.nodes.map (·.id))[position]? = some (idAt graph position) := by
    simp [idAt, inside]
  refine differ ((List.getElem?_inj (by simpa using inside) distinct).mp ?_)
  rw [ids first inside, ids second inside', same]

/-! ## Departures -/

/-- An edge that leaves a hub, with what it is sorted by. -/
structure Departure where
  /-- The position of the edge. -/
  edge : Nat
  /-- The position of the target. -/
  target : Nat
  /-- The id of the target. -/
  id : String
  /-- The style of the edge. -/
  style : Option String

/-- Departures are sorted by the id of the target, then by style and then by position. -/
def Departure.key (departure : Departure) : String ×ₗ WithBot String ×ₗ Nat :=
  toLex (departure.id, toLex (styleRank departure.style, departure.edge))

/-- The departures of a hub in the order of the edges. -/
def departuresChecked (graph : Graph α) (hub : Nat) : Checked (List Departure) := do
  let edges ← (List.range graph.edges.length).mapM fun position => do
    return (← Checked.item graph.edges position, position)
  let leaving := edges.filter fun (edge, _) => decide (edge.source = hub ∧ edge.target ≠ hub)
  leaving.mapM fun (edge, position) => do
    let target ← Checked.item graph.nodes edge.target
    return { edge := position, target := edge.target, id := target.id, style := edge.style }

/-- The departure of the edge at a position. -/
def departureAt (graph : Graph α) (position : Nat) : Departure :=
  let target := ((graph.edges[position]?).map (·.target)).getD 0
  { edge := position
    target
    id := idAt graph target
    style := (graph.edges[position]?).bind (·.style) }

/-- The positions of the edges that leave a hub. -/
def leaving (graph : Graph α) (hub : Nat) : List Nat :=
  (graph.edges.zipIdx.filter fun (edge, _) =>
    decide (edge.source = hub ∧ edge.target ≠ hub)).map (·.2)

theorem departuresChecked_eq
    (known : ∀ edge ∈ graph.edges, edge.target < graph.nodes.length) (hub : Nat) :
    departuresChecked graph hub = pure ((leaving graph hub).map (departureAt graph)) := by
  have edges : (List.range graph.edges.length).mapM (fun position => do
      return (← Checked.item graph.edges position, position)) =
      (pure graph.edges.zipIdx : Checked _) := by
    refine Checked.mapM_ext _ (by simp) fun position here here' => ?_
    have inside : position < graph.edges.length := by simpa using here
    simp only [List.getElem_range, Checked.item_of_lt inside, pure_bind, List.getElem_zipIdx,
      Nat.zero_add]
  rw [departuresChecked, edges, pure_bind, leaving, List.map_map]
  refine Checked.mapM_eq fun (edge, position) member => ?_
  have here := List.mem_zipIdx_iff_getElem?.mp (List.mem_of_mem_filter member)
  have inside := known edge (List.mem_of_getElem? here)
  simp only [Checked.item_of_lt inside, pure_bind, Function.comp_apply, departureAt, idAt, here,
    Option.map_some, Option.getD_some, Option.bind_some, List.getElem?_eq_getElem inside]

theorem mem_leaving :
    position ∈ leaving graph hub ↔
      ∃ edge, graph.edges[position]? = some edge ∧ edge.source = hub ∧ edge.target ≠ hub := by
  simp only [leaving, List.mem_map, List.mem_filter, decide_eq_true_eq, Prod.exists,
    exists_eq_right, List.mem_zipIdx_iff_getElem?]

theorem nodup_leaving (graph : Graph α) (hub : Nat) : (leaving graph hub).Nodup :=
  nodup_positions graph.edges _

/-! ## Runs -/

/-- The departures to one target, by lane. -/
def runOf (graph : Graph α) (hub target : Nat) : List Departure :=
  (lanes graph.edges hub target).map (departureAt graph)

theorem target_of_mem_runOf {departure : Departure} (member : departure ∈ runOf graph hub target) :
    departure.target = target := by
  obtain ⟨position, inLane, rfl⟩ := List.mem_map.mp member
  obtain ⟨edge, here, -, rfl⟩ := mem_lanes.mp inLane
  simp [departureAt, here]

theorem id_of_mem_runOf {departure : Departure} (member : departure ∈ runOf graph hub target) :
    departure.id = idAt graph target := by
  have target := target_of_mem_runOf member
  obtain ⟨position, -, rfl⟩ := List.mem_map.mp member
  rw [← target]
  rfl

theorem runOf_ne_nil (leads : target ∈ hubTargets graph hub) : runOf graph hub target ≠ [] := by
  obtain ⟨-, -, edge, present, starts, ends⟩ := mem_hubTargets.mp leads
  obtain ⟨position, here⟩ := List.mem_iff_getElem?.mp present
  have inLane := mem_lanes.mpr ⟨edge, here, starts, ends⟩
  exact List.ne_nil_of_mem (List.mem_map_of_mem inLane)

/-- Within a run departures are in order, as the lanes are. -/
theorem pairwise_runOf (graph : Graph α) (hub target : Nat) :
    (runOf graph hub target).Pairwise fun first second => first.key ≤ second.key := by
  refine List.pairwise_map.mpr ((pairwise_lanes graph.edges hub target).imp_of_mem ?_)
  intro first second here there before
  have id {position : Nat} (inLane : position ∈ lanes graph.edges hub target) :
      (departureAt graph position).id = idAt graph target :=
    id_of_mem_runOf (List.mem_map_of_mem inLane)
  refine Prod.Lex.toLex_le_toLex.mpr (.inr ⟨(id here).trans (id there).symm, ?_⟩)
  exact before.le

/-- Departures to different targets are in the order of the ids of the targets. -/
theorem pairwise_runs (distinct : (graph.nodes.map (·.id)).Nodup) (hub : Nat) :
    ((hubTargets graph hub).map (runOf graph hub)).flatten.Pairwise fun first second =>
      first.key ≤ second.key := by
  refine List.pairwise_flatten.mpr ⟨fun run member => ?_, List.pairwise_map.mpr ?_⟩
  · obtain ⟨target, -, rfl⟩ := List.mem_map.mp member
    exact pairwise_runOf graph hub target
  refine ((pairwise_hubTargets graph hub).and (nodup_hubTargets graph hub)).imp_of_mem ?_
  intro first second here there ⟨ordered, differ⟩ departure member departure' member'
  have apart := idAt_ne distinct (mem_hubTargets.mp here).1 (mem_hubTargets.mp there).1 differ
  rw [← id_of_mem_runOf member, ← id_of_mem_runOf member'] at ordered apart
  exact Prod.Lex.toLex_le_toLex.mpr (.inl (lt_of_le_of_ne ordered apart))

/-- The sorted departures of a hub are its runs. -/
theorem mergeSort_departures (distinct : (graph.nodes.map (·.id)).Nodup)
    (known : ∀ edge ∈ graph.edges, edge.target < graph.nodes.length) (hub : Nat) :
    ((leaving graph hub).map (departureAt graph)).mergeSort
        (fun first second => decide (first.key ≤ second.key)) =
      ((hubTargets graph hub).map (runOf graph hub)).flatten := by
  have runs : ((hubTargets graph hub).map (runOf graph hub)).flatten =
      ((hubAnchors graph hub).map (·.edge)).map (departureAt graph) := by
    rw [map_edge_hubAnchors, List.map_flatMap, List.flatMap_def]
    rfl
  have same : (leaving graph hub).Perm ((hubAnchors graph hub).map (·.edge)) := by
    refine (List.perm_ext_iff_of_nodup (nodup_leaving graph hub)
      (nodup_map_edge_hubAnchors graph hub)).mpr fun position => ?_
    rw [mem_leaving, mem_map_edge_hubAnchors]
    refine exists_congr fun edge => and_congr_right fun here => and_congr_right fun _ => ?_
    exact (and_iff_left (known edge (List.mem_of_getElem? here))).symm
  -- Both sides are sorted and hold the same departures, and no two departures have one key.
  refine List.Perm.eq_of_pairwise ?_
    (List.pairwise_mergeSort' (fun first second : Departure => first.key ≤ second.key) _)
    (pairwise_runs distinct hub) ?_
  · intro first second here there below above
    rw [List.mem_mergeSort] at here
    obtain ⟨position, -, rfl⟩ := List.mem_map.mp here
    rw [runs] at there
    obtain ⟨other, -, rfl⟩ := List.mem_map.mp there
    have keys := congrArg (fun key => (ofLex (ofLex key).2).2) (le_antisymm below above)
    exact congrArg (departureAt graph) keys
  · rw [runs]
    exact (List.mergeSort_perm _ _).trans (same.map _)

/-- Cut where the target changes, they are the runs again. -/
theorem splitBy_runs (graph : Graph α) (hub : Nat) :
    ((hubTargets graph hub).map (runOf graph hub)).flatten.splitBy
        (fun first second => first.target == second.target) =
      (hubTargets graph hub).map (runOf graph hub) := by
  apply List.splitBy_flatten
  · intro empty
    obtain ⟨target, leads, nothing⟩ := List.mem_map.mp empty
    exact runOf_ne_nil leads nothing
  · intro run member
    obtain ⟨target, -, rfl⟩ := List.mem_map.mp member
    refine (List.pairwise_of_forall_mem_list fun first here second there => ?_).isChain
    rw [target_of_mem_runOf here, target_of_mem_runOf there, beq_self_eq_true]
  · refine (List.pairwise_map.mpr ?_).isChain
    refine (nodup_hubTargets graph hub).imp_of_mem fun {first second} here there differ => ?_
    refine ⟨runOf_ne_nil here, runOf_ne_nil there, beq_eq_false_iff_ne.mpr ?_⟩
    rwa [target_of_mem_runOf (List.getLast_mem _), target_of_mem_runOf (List.head_mem _)]

/-! ## Placing -/

/-- The runs of some departures: sorted, and cut where the target changes. -/
def runs (departures : List Departure) : List (List Departure) :=
  (departures.mergeSort fun first second => decide (first.key ≤ second.key)).splitBy
    fun first second => first.target == second.target

/-- The anchors of a run with their places. -/
def runChecked (options : NetworkOptions) (places : List Point) (hub : Nat)
    (run : List Departure) : Checked (List (Anchor × Point)) := do
  let first ← Checked.item run 0
  let target ← Checked.item places first.target
  let origin ← Checked.item places hub
  let lastLane ← Checked.minus run.length 1
  return run.zipIdx.map fun (departure, lane) =>
    ({ hub, edge := departure.edge, lane, lanes := run.length },
      lanePlace options origin target lane lastLane)

/-- The anchors of a hub with their places. -/
def hubAnchorsChecked (options : NetworkOptions) (graph : Graph α) (places : List Point)
    (hub : Nat) : Checked (List (Anchor × Point)) := do
  let departures ← departuresChecked graph hub
  return (← (runs departures).mapM (runChecked options places hub)).flatten

/-- The positions of the hubs. -/
def hubs (options : NetworkOptions) (graph : Graph α) : List Nat :=
  (List.range graph.nodes.length).filter fun position =>
    (graph.nodes[position]?).any (isHub options)

/-- The anchors of all hubs with their places. -/
def anchorsChecked (options : NetworkOptions) (graph : Graph α) (places : List Point) :
    Checked (List (Anchor × Point)) := do
  return (← (hubs options graph).mapM (hubAnchorsChecked options graph places)).flatten

/-- For each node whether it is a hub. -/
def pinnedChecked (hubs : List Nat) (count : Nat) : Checked (List Bool) :=
  hubs.foldlM (fun table hub => Checked.put table hub true) (List.replicate count false)

/-- For each edge the position of the anchor that it leaves through. -/
def reroutedChecked (anchors : List Anchor) (count : Nat) : Checked (List (Option Nat)) :=
  anchors.zipIdx.foldlM (fun table (anchor, index) => Checked.put table anchor.edge (some index))
    (List.replicate count none)

variable {places : List Point}

theorem runChecked_eq (options : NetworkOptions) (count : places.length = graph.nodes.length)
    (inside : hub < graph.nodes.length) (leads : target ∈ hubTargets graph hub) :
    runChecked options places hub (runOf graph hub target) =
      pure (((lanes graph.edges hub target).zipIdx.map fun (edge, lane) =>
        ({ hub, edge, lane, lanes := (lanes graph.edges hub target).length } : Anchor)).map
          fun anchor => (anchor, anchorPlace options graph places anchor)) := by
  have length : (runOf graph hub target).length = (lanes graph.edges hub target).length :=
    List.length_map _
  have occupied : 0 < (runOf graph hub target).length :=
    List.length_pos_of_ne_nil (runOf_ne_nil leads)
  have toTarget : target < places.length := count ▸ (mem_hubTargets.mp leads).1
  have fromHub : hub < places.length := count ▸ inside
  rw [runChecked, Checked.item_of_lt occupied, pure_bind,
    target_of_mem_runOf (List.getElem_mem occupied), Checked.item_getD toTarget ⟨0, 0⟩, pure_bind,
    Checked.item_getD fromHub ⟨0, 0⟩, pure_bind, Checked.minus_eq occupied, pure_bind, length]
  refine congrArg pure (List.ext_getElem (by simp [runOf]) fun lane here here' => ?_)
  have inLanes : lane < (lanes graph.edges hub target).length := by simpa using here'
  obtain ⟨edge, found, -, same⟩ := mem_lanes.mp (List.getElem_mem inLanes)
  simp [runOf, departureAt, anchorPlace, found, same]

theorem hubAnchorsChecked_eq (options : NetworkOptions)
    (distinct : (graph.nodes.map (·.id)).Nodup)
    (known : ∀ edge ∈ graph.edges, edge.target < graph.nodes.length)
    (count : places.length = graph.nodes.length) (inside : hub < graph.nodes.length) :
    hubAnchorsChecked options graph places hub =
      pure ((hubAnchors graph hub).map fun anchor =>
        (anchor, anchorPlace options graph places anchor)) := by
  have cut : runs ((leaving graph hub).map (departureAt graph)) =
      (hubTargets graph hub).map (runOf graph hub) := by
    rw [runs, mergeSort_departures distinct known, splitBy_runs]
  have placed : ((hubTargets graph hub).map (runOf graph hub)).mapM
      (runChecked options places hub) = pure ((hubTargets graph hub).map fun target =>
        ((lanes graph.edges hub target).zipIdx.map fun (edge, lane) =>
          ({ hub, edge, lane, lanes := (lanes graph.edges hub target).length } : Anchor)).map
            fun anchor => (anchor, anchorPlace options graph places anchor)) := by
    rw [List.mapM_map]
    exact Checked.mapM_eq fun target leads => runChecked_eq options count inside leads
  rw [hubAnchorsChecked, departuresChecked_eq known, pure_bind, cut, placed, pure_bind,
    ← List.flatMap_def, hubAnchors, List.map_flatMap]

theorem anchors_eq_flatMap_hubs (options : NetworkOptions) (graph : Graph α) :
    anchors options graph = (hubs options graph).flatMap (hubAnchors graph) := by
  rw [anchors, hubs]
  induction List.range graph.nodes.length with
  | nil => rfl
  | cons position rest ih =>
      rw [List.flatMap_cons, List.filter_cons, ih]
      split
      · rw [List.flatMap_cons]
      · rfl

theorem anchorsChecked_eq (options : NetworkOptions)
    (distinct : (graph.nodes.map (·.id)).Nodup)
    (known : ∀ edge ∈ graph.edges, edge.target < graph.nodes.length)
    (count : places.length = graph.nodes.length) :
    anchorsChecked options graph places =
      pure ((anchors options graph).map fun anchor =>
        (anchor, anchorPlace options graph places anchor)) := by
  have placed : (hubs options graph).mapM (hubAnchorsChecked options graph places) =
      pure ((hubs options graph).map fun hub => (hubAnchors graph hub).map fun anchor =>
        (anchor, anchorPlace options graph places anchor)) := by
    refine Checked.mapM_eq fun hub member => ?_
    have inside := List.mem_range.mp (List.mem_of_mem_filter member)
    exact hubAnchorsChecked_eq options distinct known count inside
  rw [anchorsChecked, placed, pure_bind, ← List.flatMap_def, anchors_eq_flatMap_hubs,
    List.map_flatMap]

/-! ## Hubs and their edges -/

theorem pinnedChecked_eq (options : NetworkOptions) (graph : Graph α) :
    pinnedChecked (hubs options graph) graph.nodes.length =
      pure ((List.range graph.nodes.length).map fun position =>
        (graph.nodes[position]?).any (isHub options)) := by
  have inside : ∀ position ∈ hubs options graph, position < graph.nodes.length :=
    fun position named => List.mem_range.mp (List.mem_of_mem_filter named)
  rw [pinnedChecked, Checked.foldlM_put_true inside]
  refine congrArg pure (List.map_congr_left fun position present => Bool.eq_iff_iff.mpr ?_)
  rw [List.contains_iff_mem, hubs, List.mem_filter]
  exact and_iff_right present

theorem reroutedChecked_eq {anchors : List Anchor} {count : Nat}
    (own : (anchors.map (·.edge)).Nodup) (inside : ∀ anchor ∈ anchors, anchor.edge < count) :
    reroutedChecked anchors count =
      pure ((List.range count).map fun position =>
        anchors.findIdx? fun anchor => anchor.edge = position) := by
  have puts : reroutedChecked anchors count =
      (anchors.zipIdx.map fun (anchor, index) => (anchor.edge, some index)).foldlM
        (fun table entry => Checked.put table entry.1 entry.2) (List.replicate count none) := by
    rw [List.foldlM_map]
    rfl
  rw [puts, Checked.replicate_eq_map_range]
  refine Checked.foldlM_put_table (fun entry member => ?_) fun position below => ?_
  · obtain ⟨⟨anchor, index⟩, listed, rfl⟩ := List.mem_map.mp member
    have here : anchors[index]? = some anchor := List.mem_zipIdx_iff_getElem?.mp listed
    refine ⟨inside anchor (List.mem_of_getElem? here), ?_⟩
    obtain ⟨below, rfl⟩ := List.getElem?_eq_some_iff.mp here
    refine List.findIdx?_eq_some_iff_getElem.mpr ⟨below, by simp, fun earlier less => ?_⟩
    have apart := List.pairwise_iff_getElem.mp (List.pairwise_map.mp own) earlier index
      (less.trans below) below less
    simpa using apart
  · cases found : anchors.findIdx? fun anchor => anchor.edge = position with
    | none => exact .inl rfl
    | some index =>
        obtain ⟨below, same, -⟩ := List.findIdx?_eq_some_iff_getElem.mp found
        have listed : (anchors[index], index) ∈ anchors.zipIdx :=
          List.mem_zipIdx_iff_getElem?.mpr (List.getElem?_eq_getElem below)
        refine .inr (List.mem_map.mpr ⟨_, List.mem_map_of_mem listed, ?_⟩)
        exact of_decide_eq_true same

end ChartCompiler.Network
