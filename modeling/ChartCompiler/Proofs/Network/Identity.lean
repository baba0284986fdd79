import ChartCompiler.Compile
import ChartCompiler.Proofs.Json.Members
import ChartCompiler.Proofs.Network.Totals
import ChartCompiler.Proofs.Number.Digits

/-!
# What the links of a network name

A link names its ends by id, so an end is unambiguous only if no two nodes share an id.  Nodes are
merged by id, and anchors are numbered through, so neither two nodes nor two anchors ever do.  But
ids of nodes are given and ids of anchors are made from them, and nothing keeps a given id from
being the one that an anchor gets.  The ids of a compiled network are therefore distinct exactly
when that does not happen (`Disjoint`), and then every link resolves to the ends of its edge.
-/

set_option autoImplicit false

namespace ChartCompiler.Network

/-! ## Ids of anchors -/

/-- What follows the last colon of a text, when that is digits only. -/
theorem takeWhile_isDigit_reverse (start : List Char) {digits : List Char}
    (numeric : ∀ digit ∈ digits, digit.isDigit = true) :
    (start ++ ':' :: digits).reverse.takeWhile Char.isDigit = digits.reverse := by
  rw [List.reverse_append, List.reverse_cons, List.append_assoc, List.singleton_append,
    List.takeWhile_append_of_pos fun digit member => numeric digit (List.mem_reverse.mp member),
    List.takeWhile_cons_of_neg (by decide), List.append_nil]

theorem anchorId_injective {graph : Graph Float} {position other : Nat} {anchor rival : Anchor}
    (same : anchorId graph position anchor = anchorId graph other rival) : position = other := by
  have numbered (count : Nat) (holder : Anchor) : ∃ start,
      (anchorId graph count holder).toList = start ++ ':' :: digitsOf count := by
    refine ⟨(((graph.nodes[holder.hub]?).map (·.id)).getD "").toList ++ "::anchor:".toList, ?_⟩
    simp [anchorId, naturalText]
  have numeric (count : Nat) : ∀ digit ∈ digitsOf count, digit.isDigit = true :=
    fun _ member => isDigit_of_mem_digitsOf member
  obtain ⟨start, written⟩ := numbered position anchor
  obtain ⟨start', written'⟩ := numbered other rival
  have texts := congrArg String.toList same
  rw [written, written'] at texts
  have tails := congrArg (fun text => text.reverse.takeWhile Char.isDigit) texts
  simp only [takeWhile_isDigit_reverse _ (numeric _), List.reverse_inj] at tails
  exact digitsOf_injective tails

/-! ## The edges that leave through anchors -/

section Anchors

variable {α : Type} {edges : List (Edge α)} {source target position : Nat}

theorem mem_lanes :
    position ∈ lanes edges source target ↔
      ∃ edge, edges[position]? = some edge ∧ edge.source = source ∧ edge.target = target := by
  simp only [lanes, List.mem_map, List.mem_mergeSort, List.mem_filter, decide_eq_true_eq,
    Prod.exists, exists_eq_right, List.mem_zipIdx_iff_getElem?]

/-- An edge is in a lane of its own direction. -/
theorem mem_lanes_self {edge : Edge α} (here : edges[position]? = some edge) :
    position ∈ lanes edges edge.source edge.target :=
  mem_lanes.mpr ⟨edge, here, rfl, rfl⟩

/-- The positions of the edges that are kept by a filter are distinct. -/
theorem nodup_positions (edges : List (Edge α)) (kept : Edge α × Nat → Bool) :
    ((edges.zipIdx.filter kept).map (·.2)).Nodup := by
  refine List.Nodup.sublist ((List.filter_sublist).map _) ?_
  rw [List.zipIdx_map_snd]
  exact List.nodup_range'

theorem nodup_lanes (edges : List (Edge α)) (source target : Nat) :
    (lanes edges source target).Nodup :=
  (((List.mergeSort_perm _ _).map _).nodup_iff).mpr (nodup_positions edges _)

variable {graph : Graph α} {options : NetworkOptions} {hub : Nat}

theorem mem_hubTargets :
    target ∈ hubTargets graph hub ↔ target < graph.nodes.length ∧ target ≠ hub ∧
      ∃ edge ∈ graph.edges, edge.source = hub ∧ edge.target = target := by
  simp only [hubTargets, List.mem_mergeSort, List.mem_filter, List.mem_range, Bool.and_eq_true,
    decide_eq_true_eq, List.any_eq_true]

theorem nodup_hubTargets (graph : Graph α) (hub : Nat) : (hubTargets graph hub).Nodup :=
  (List.mergeSort_perm _ _).nodup_iff.mpr (List.nodup_range.filter _)

/-- The anchors of a hub take up the lanes to each of its targets. -/
theorem map_edge_hubAnchors (graph : Graph α) (hub : Nat) :
    (hubAnchors graph hub).map (·.edge) =
      (hubTargets graph hub).flatMap fun target => lanes graph.edges hub target := by
  rw [hubAnchors, List.map_flatMap]
  refine List.flatMap_congr fun target _ => ?_
  rw [List.map_map]
  exact List.zipIdx_map_fst _ _

theorem mem_map_edge_hubAnchors :
    position ∈ (hubAnchors graph hub).map (·.edge) ↔
      ∃ edge, graph.edges[position]? = some edge ∧ edge.source = hub ∧ edge.target ≠ hub ∧
        edge.target < graph.nodes.length := by
  simp only [map_edge_hubAnchors, List.mem_flatMap, mem_hubTargets, mem_lanes]
  constructor
  · rintro ⟨target, ⟨known, leaves, -⟩, edge, here, starts, rfl⟩
    exact ⟨edge, here, starts, leaves, known⟩
  · rintro ⟨edge, here, starts, leaves, known⟩
    exact ⟨edge.target, ⟨known, leaves, edge, List.mem_of_getElem? here, starts, rfl⟩, edge, here,
      starts, rfl⟩

theorem nodup_map_edge_hubAnchors (graph : Graph α) (hub : Nat) :
    ((hubAnchors graph hub).map (·.edge)).Nodup := by
  rw [map_edge_hubAnchors, List.nodup_flatMap]
  refine ⟨fun target _ => nodup_lanes _ _ _, (nodup_hubTargets graph hub).imp ?_⟩
  intro first second differ position inFirst inSecond
  obtain ⟨edge, here, -, rfl⟩ := mem_lanes.mp inFirst
  obtain ⟨other, here', -, rfl⟩ := mem_lanes.mp inSecond
  exact differ (congrArg Edge.target (Option.some.inj (here.symm.trans here')))

/-- Whether an edge leaves through an anchor: it starts from a hub and leads elsewhere. -/
def isRerouted (options : NetworkOptions) (graph : Graph α) (edge : Edge α) : Bool :=
  (graph.nodes[edge.source]?).any (isHub options) && decide (edge.source ≠ edge.target)

theorem map_edge_anchors (options : NetworkOptions) (graph : Graph α) :
    (anchors options graph).map (·.edge) =
      (List.range graph.nodes.length).flatMap fun position =>
        if (graph.nodes[position]?).any (isHub options) then
          (hubAnchors graph position).map (·.edge)
        else [] := by
  rw [anchors, List.map_flatMap]
  refine List.flatMap_congr fun position _ => ?_
  split <;> rfl

/-- An edge has an anchor exactly when it starts from a hub and leads elsewhere. -/
theorem mem_map_edge_anchors
    (known : ∀ edge ∈ graph.edges,
      edge.source < graph.nodes.length ∧ edge.target < graph.nodes.length) :
    position ∈ (anchors options graph).map (·.edge) ↔
      ∃ edge, graph.edges[position]? = some edge ∧ isRerouted options graph edge = true := by
  simp only [map_edge_anchors, List.mem_flatMap, List.mem_range, List.mem_ite_nil_right,
    mem_map_edge_hubAnchors, isRerouted, Bool.and_eq_true, decide_eq_true_eq]
  constructor
  · rintro ⟨hub, -, named, edge, here, rfl, leaves, -⟩
    exact ⟨edge, here, named, leaves.symm⟩
  · rintro ⟨edge, here, named, leaves⟩
    obtain ⟨source, target⟩ := known edge (List.mem_of_getElem? here)
    exact ⟨edge.source, source, named, edge, here, rfl, Ne.symm leaves, target⟩

/-- No two anchors stand for one edge. -/
theorem nodup_map_edge_anchors (options : NetworkOptions) (graph : Graph α) :
    ((anchors options graph).map (·.edge)).Nodup := by
  rw [map_edge_anchors, List.nodup_flatMap]
  refine ⟨fun hub _ => ?_, List.nodup_range.imp ?_⟩
  · split
    · exact nodup_map_edge_hubAnchors graph hub
    · exact List.nodup_nil
  · intro first second differ position inFirst inSecond
    simp only [List.mem_ite_nil_right, mem_map_edge_hubAnchors] at inFirst inSecond
    obtain ⟨-, edge, here, rfl, -⟩ := inFirst
    obtain ⟨-, other, here', rfl, -⟩ := inSecond
    exact differ (congrArg Edge.source (Option.some.inj (here.symm.trans here')))

/-- An anchor stands at the node that its edge starts from. -/
theorem hub_of_mem_anchors {anchor : Anchor} (member : anchor ∈ anchors options graph) :
    ∃ edge, graph.edges[anchor.edge]? = some edge ∧ edge.source = anchor.hub := by
  simp only [anchors, List.mem_flatMap, List.mem_ite_nil_right] at member
  obtain ⟨hub, -, -, atHub⟩ := member
  obtain ⟨edge, here, starts, -⟩ := mem_map_edge_hubAnchors.mp (List.mem_map_of_mem atHub)
  simp only [hubAnchors, List.mem_flatMap, List.mem_map] at atHub
  obtain ⟨target, -, lane, -, rfl⟩ := atHub
  exact ⟨edge, here, starts⟩

end Anchors

/-! ## The graph of some records -/

theorem nodup_ids_ofRows {α : Type} [Quantity α] (rows : List Record) (config : Config) :
    ((Graph.ofRows rows config : Graph α).nodes.map (·.id)).Nodup := by
  cases resolved : Fields.resolve rows config with
  | none => simp [Graph.ofRows, resolved, Graph.empty]
  | some fields =>
      rw [Graph.ofRows_eq_merged resolved]
      exact (Graph.summarises_merged _).ids

theorem ends_ofRows {α : Type} [Quantity α] (rows : List Record) (config : Config) :
    ∀ edge ∈ (Graph.ofRows rows config : Graph α).edges,
      edge.source < (Graph.ofRows rows config : Graph α).nodes.length ∧
        edge.target < (Graph.ofRows rows config : Graph α).nodes.length := by
  cases resolved : Fields.resolve rows config with
  | none => simp [Graph.ofRows, resolved, Graph.empty]
  | some fields =>
      rw [Graph.ofRows_eq_merged resolved]
      exact (Graph.summarises_merged _).ends

/-! ## What is emitted -/

/-- The series of a chart that shows its graph. -/
def emittedSeries (chart : CompiledChart) : Json :=
  (chart.option.itemsAt "series").headD .null

/-- The nodes of a chart, anchors included. -/
def emittedNodes (chart : CompiledChart) : List Json :=
  (emittedSeries chart).itemsAt "data"

/-- The links of a chart. -/
def emittedLinks (chart : CompiledChart) : List Json :=
  (emittedSeries chart).itemsAt "links"

/-- The ids of the nodes of a graph, and then those of anchors. -/
def ids (graph : Graph Float) (anchors : List Anchor) : List String :=
  graph.nodes.map (·.id) ++
    anchors.zipIdx.map fun (anchor, position) => anchorId graph position anchor

theorem emittedSeries_empty (dark : Bool) : emittedSeries (.empty dark) = .null := by
  simp [emittedSeries, CompiledChart.empty, CompiledChart.ofOption, noDataOption, Json.itemsAt,
    Json.items?]

namespace Drawing

variable (drawing : Drawing) (config : Config) (dark : Bool)

theorem emittedSeries_toChart :
    emittedSeries (drawing.toChart config dark) =
      drawing.liveSeries config drawing.nodeItems drawing.styledEdges := by
  simp [emittedSeries, toChart, around, Json.itemsAt, Json.items?]

theorem emittedNodes_toChart :
    emittedNodes (drawing.toChart config dark) = drawing.nodeItems := by
  rw [emittedNodes, emittedSeries_toChart]
  simp [liveSeries, Json.itemsAt, Json.items?]

theorem emittedLinks_toChart :
    emittedLinks (drawing.toChart config dark) = drawing.styledEdges.map (·.edge) := by
  rw [emittedLinks, emittedSeries_toChart]
  simp [liveSeries, Json.itemsAt, Json.items?]

theorem textAt?_id_nodeItem (largestValue : Float) (node : Node Float) (place : Point) :
    (drawing.nodeItem largestValue node place).textAt? "id" = some node.id := by
  rw [nodeItem, paintNode, Json.textAt?, Json.member?_setIf_of_ne (by decide)]
  cases drawing.categoryIndex? node with
  | none => simp [Json.string?]
  | some position =>
      rw [Json.member?_set_of_ne (by decide)]
      simp [Json.string?]

theorem textAt?_id_anchorItem (position : Nat) (anchor : Anchor) :
    (drawing.anchorItem position anchor).textAt? "id" =
      some (anchorId drawing.graph position anchor) := by
  simp [anchorItem, paintAnchor, Json.textAt?, Json.string?]

theorem map_id_nodeItems (placed : drawing.places.length = drawing.graph.nodes.length) :
    drawing.nodeItems.map (·.textAt? "id") = (ids drawing.graph drawing.anchors).map some := by
  have nodes (largestValue : Float) :
      (List.zipWith (drawing.nodeItem largestValue) drawing.graph.nodes drawing.places).map
          (·.textAt? "id") = (drawing.graph.nodes.map (·.id)).map some := by
    refine List.ext_getElem (by simp [placed]) fun position here here' => ?_
    simp [textAt?_id_nodeItem]
  have anchors : (drawing.anchors.zipIdx.map fun (anchor, position) =>
      drawing.anchorItem position anchor).map (·.textAt? "id") =
        (drawing.anchors.zipIdx.map fun (anchor, position) =>
          anchorId drawing.graph position anchor).map some := by
    rw [List.map_map, List.map_map]
    exact List.map_congr_left fun (anchor, position) _ =>
      drawing.textAt?_id_anchorItem position anchor
  rw [nodeItems, ids, List.map_append, List.map_append, nodes, anchors]

/-! ### Links -/

theorem textAt?_source_edgeItem (position : Nat) (edge : Edge Float) (width bend : Float) :
    (drawing.edgeItem position edge width bend).textAt? "source" =
      some (drawing.sourceId position edge) := by
  simp [edgeItem, paintEdge, Json.textAt?, Json.string?]

theorem textAt?_target_edgeItem (position : Nat) (edge : Edge Float) (width bend : Float) :
    (drawing.edgeItem position edge width bend).textAt? "target" =
      some (drawing.nodeId edge.target) := by
  simp [edgeItem, paintEdge, Json.textAt?, Json.string?]

end Drawing

theorem length_edgeWidths {α : Type} [Quantity α] (mode : WidthMeasure) (thinnest thickest : α)
    (weights : List α) : (edgeWidths mode thinnest thickest weights).length = weights.length := by
  rw [edgeWidths]
  split <;> rw [List.length_map]

theorem length_curvatures {α : Type} [Quantity α] (bending : Bending α) (edges : List (Edge α)) :
    (curvatures bending edges).length = edges.length := by
  rw [curvatures, List.length_map, List.length_zipIdx]

namespace Drawing

variable (drawing : Drawing)

theorem length_styledEdges : drawing.styledEdges.length = drawing.graph.edges.length := by
  simp only [styledEdges, List.length_map, List.length_zipIdx, List.length_zip, length_edgeWidths,
    length_curvatures, Nat.min_self]

/-- The link at a position is that of the edge at the position. -/
theorem edge_of_getElem?_styledEdges {position : Nat} {styled : StyledEdge}
    (here : drawing.styledEdges[position]? = some styled) :
    ∃ edge width bend, drawing.graph.edges[position]? = some edge ∧
      styled.style = edge.style ∧ styled.edge = drawing.edgeItem position edge width bend := by
  simp only [styledEdges, List.getElem?_map, List.getElem?_zipIdx, Option.map_map,
    Option.map_eq_some_iff, List.getElem?_zip_eq_some] at here
  obtain ⟨⟨⟨edge, width⟩, bend⟩, ⟨⟨here, -⟩, -⟩, rfl⟩ := here
  exact ⟨edge, width, bend, here, rfl, by simp⟩

end Drawing

/-! ## Names of nodes -/

/-- No node is known by the id of an anchor. -/
def Unclaimed (graph : Graph Float) (anchors : List Anchor) : Prop :=
  ∀ node ∈ graph.nodes, ∀ position anchor, anchors[position]? = some anchor →
    node.id ≠ anchorId graph position anchor

theorem nodup_ids_iff {graph : Graph Float} (distinct : (graph.nodes.map (·.id)).Nodup)
    (anchors : List Anchor) : (ids graph anchors).Nodup ↔ Unclaimed graph anchors := by
  have numbered : (anchors.zipIdx.map fun (anchor, position) =>
      anchorId graph position anchor).Nodup := by
    refine List.Nodup.map_on ?_ (List.Nodup.of_map (·.2) ?_)
    · rintro ⟨anchor, position⟩ member ⟨rival, other⟩ member' same
      obtain rfl := anchorId_injective same
      rw [List.mem_zipIdx_iff_getElem?] at member member'
      exact Prod.ext (Option.some.inj (member.symm.trans member')) rfl
    · rw [List.zipIdx_map_snd]
      exact List.nodup_range'
  rw [ids, List.nodup_append']
  constructor
  · intro ⟨_, _, apart⟩ node member position anchor here same
    refine apart (List.mem_map_of_mem member) (List.mem_map.mpr ⟨(anchor, position), ?_, same.symm⟩)
    exact List.mem_zipIdx_iff_getElem?.mpr here
  · intro unclaimed
    refine ⟨distinct, numbered, fun id inNodes inAnchors => ?_⟩
    obtain ⟨node, member, rfl⟩ := List.mem_map.mp inNodes
    obtain ⟨⟨anchor, position⟩, member', same⟩ := List.mem_map.mp inAnchors
    exact unclaimed node member position anchor (List.mem_zipIdx_iff_getElem?.mp member') same.symm

/-- A text is the id of the emitted node at a place, and of no other emitted node. -/
def NamesOnly (chart : CompiledChart) (name : Option String) (place : Nat) : Prop :=
  place < (emittedNodes chart).length ∧
    ∀ other node, (emittedNodes chart)[other]? = some node →
      (node.textAt? "id" = name ↔ other = place)

/-- Where ids are distinct, an id names the node that has it and no other. -/
theorem namesOnly_of_getElem? {chart : CompiledChart} {names : List String}
    (written : (emittedNodes chart).map (·.textAt? "id") = names.map some)
    (distinct : names.Nodup) {place : Nat} {name : String} (here : names[place]? = some name) :
    NamesOnly chart (some name) place := by
  have length : (emittedNodes chart).length = names.length := by
    simpa using congrArg List.length written
  refine ⟨length ▸ (List.getElem?_eq_some_iff.mp here).1, fun other node there => ?_⟩
  have id := congrArg (·[other]?) written
  simp only [List.getElem?_map, there, Option.map_some] at id
  obtain ⟨found, atOther, same⟩ := Option.map_eq_some_iff.mp id.symm
  rw [← same, Option.some.injEq]
  constructor
  · rintro rfl
    exact (List.getElem?_inj (List.getElem?_eq_some_iff.mp atOther).1 distinct).mp
      (atOther.trans here.symm)
  · rintro rfl
    exact Option.some.inj (atOther.symm.trans here)

/-- The links of a chart name the ends of the edges of a graph. -/
structure LinksResolve (chart : CompiledChart) (options : NetworkOptions) (graph : Graph Float) :
    Prop where
  /-- There is a link for every edge. -/
  length : (emittedLinks chart).length = graph.edges.length
  /-- No two anchors stand for one edge. -/
  own : ((anchors options graph).map (·.edge)).Nodup
  /-- A link leads to the target of its edge. -/
  target : ∀ (position : Nat) (edge : Edge Float) (link : Json),
    graph.edges[position]? = some edge → (emittedLinks chart)[position]? = some link →
      NamesOnly chart (link.textAt? "target") edge.target
  /-- A link starts from the source of its edge, unless the edge leaves through an anchor. -/
  direct : ∀ (position : Nat) (edge : Edge Float) (link : Json),
    graph.edges[position]? = some edge → (emittedLinks chart)[position]? = some link →
      isRerouted options graph edge = false →
      NamesOnly chart (link.textAt? "source") edge.source
  /-- The link of an edge that leaves through an anchor starts from the anchor of the edge. -/
  rerouted : ∀ (position : Nat) (edge : Edge Float) (link : Json),
    graph.edges[position]? = some edge → (emittedLinks chart)[position]? = some link →
      isRerouted options graph edge = true →
      ∃ index anchor, (anchors options graph)[index]? = some anchor ∧ anchor.edge = position ∧
        anchor.hub = edge.source ∧
          NamesOnly chart (link.textAt? "source") (graph.nodes.length + index)

namespace Drawing

/-- The anchor of an edge is the one that stands for its position. -/
theorem anchorOf?_eq_some {drawing : Drawing} {position index : Nat}
    (found : drawing.anchorOf? position = some index) :
    ∃ anchor, drawing.anchors[index]? = some anchor ∧ anchor.edge = position := by
  obtain ⟨inside, same, -⟩ := List.findIdx?_eq_some_iff_getElem.mp found
  exact ⟨_, List.getElem?_eq_getElem inside, of_decide_eq_true same⟩

theorem anchorOf?_isSome {drawing : Drawing} {position : Nat} :
    (drawing.anchorOf? position).isSome = true ↔ position ∈ drawing.anchors.map (·.edge) := by
  rw [anchorOf?, List.findIdx?_isSome, List.any_eq_true, List.mem_map]
  simp only [decide_eq_true_eq]

/-- The ids of the drawing of a graph are those of its nodes and of its anchors. -/
theorem map_id_emittedNodes_of (graph : Graph Float) (config : Config) (dark : Bool) :
    (emittedNodes ((Drawing.of graph config dark).toChart config dark)).map (·.textAt? "id") =
      (ids graph (Network.anchors config.network graph)).map some := by
  rw [emittedNodes_toChart]
  exact map_id_nodeItems _ (by simp [Drawing.of, seeds])

/-- With ids apart, the id of a node names it. -/
theorem namesOnly_nodeId {graph : Graph Float} {config : Config} {dark : Bool}
    (apart : (ids graph (Network.anchors config.network graph)).Nodup) {place : Nat}
    (inside : place < graph.nodes.length) :
    NamesOnly ((Drawing.of graph config dark).toChart config dark)
      (some ((Drawing.of graph config dark).nodeId place)) place := by
  refine namesOnly_of_getElem? (map_id_emittedNodes_of graph config dark) apart ?_
  rw [ids, List.getElem?_append_left (by simpa using inside)]
  simp [nodeId, Drawing.of, inside]

/-- With ids apart, the id of an anchor names it. -/
theorem namesOnly_anchorId {graph : Graph Float} {config : Config} {dark : Bool}
    (apart : (ids graph (Network.anchors config.network graph)).Nodup) {index : Nat}
    {anchor : Anchor} (placed : (Network.anchors config.network graph)[index]? = some anchor) :
    NamesOnly ((Drawing.of graph config dark).toChart config dark)
      (some (anchorId graph index anchor)) (graph.nodes.length + index) := by
  refine namesOnly_of_getElem? (map_id_emittedNodes_of graph config dark) apart ?_
  rw [ids, List.getElem?_append_right (by simp)]
  simp only [List.length_map, Nat.add_sub_cancel_left, List.getElem?_map, List.getElem?_zipIdx,
    placed, Nat.zero_add]
  rfl

/-- A link is written with the ends of the edge at its position. -/
theorem ends_of_getElem?_emittedLinks {drawing : Drawing} {config : Config} {dark : Bool}
    {position : Nat} {edge : Edge Float} {link : Json}
    (here : drawing.graph.edges[position]? = some edge)
    (there : (emittedLinks (drawing.toChart config dark))[position]? = some link) :
    link.textAt? "source" = some (drawing.sourceId position edge) ∧
      link.textAt? "target" = some (drawing.nodeId edge.target) := by
  rw [emittedLinks_toChart, List.getElem?_map] at there
  obtain ⟨styled, found, rfl⟩ := Option.map_eq_some_iff.mp there
  obtain ⟨other, width, bend, here', -, same⟩ := edge_of_getElem?_styledEdges _ found
  obtain rfl : edge = other := Option.some.inj (here.symm.trans here')
  rw [same, textAt?_source_edgeItem, textAt?_target_edgeItem]
  exact ⟨rfl, rfl⟩

/-- An edge has an anchor in its drawing exactly when it leaves through one. -/
theorem isSome_anchorOf?_of {graph : Graph Float} (config : Config) (dark : Bool)
    (known : ∀ edge ∈ graph.edges,
      edge.source < graph.nodes.length ∧ edge.target < graph.nodes.length)
    {position : Nat} {edge : Edge Float} (here : graph.edges[position]? = some edge) :
    ((Drawing.of graph config dark).anchorOf? position).isSome =
      isRerouted config.network graph edge := by
  rw [Bool.eq_iff_iff, anchorOf?_isSome]
  refine (mem_map_edge_anchors known).trans ⟨fun ⟨other, there, leaves⟩ => ?_, fun leaves => ?_⟩
  · exact Option.some.inj (there.symm.trans here) ▸ leaves
  · exact ⟨edge, here, leaves⟩

/-- **With ids apart, the links of a drawing resolve.** -/
theorem linksResolve_of {graph : Graph Float} {config : Config} {dark : Bool}
    (known : ∀ edge ∈ graph.edges,
      edge.source < graph.nodes.length ∧ edge.target < graph.nodes.length)
    (apart : (ids graph (Network.anchors config.network graph)).Nodup) :
    LinksResolve ((Drawing.of graph config dark).toChart config dark) config.network graph := by
  constructor
  case length =>
    rw [emittedLinks_toChart, List.length_map, length_styledEdges]
    rfl
  case own => exact nodup_map_edge_anchors _ _
  case target =>
    intro position edge emitted here there
    rw [(ends_of_getElem?_emittedLinks here there).2]
    exact namesOnly_nodeId apart (known edge (List.mem_of_getElem? here)).2
  case direct =>
    intro position edge emitted here there direct
    have unanchored := (isSome_anchorOf?_of config dark known here).trans direct
    have noAnchor := Option.isSome_eq_false_iff.mp unanchored
    rw [(ends_of_getElem?_emittedLinks here there).1, sourceId,
      Option.isNone_iff_eq_none.mp noAnchor]
    exact namesOnly_nodeId apart (known edge (List.mem_of_getElem? here)).1
  case rerouted =>
    intro position edge emitted here there leaves
    have anchored := (isSome_anchorOf?_of config dark known here).trans leaves
    obtain ⟨index, found⟩ := Option.isSome_iff_exists.mp anchored
    obtain ⟨anchor, placed, same⟩ := anchorOf?_eq_some found
    obtain ⟨other, here', starts⟩ := hub_of_mem_anchors (List.mem_of_getElem? placed)
    rw [same, here] at here'
    obtain rfl := Option.some.inj here'
    refine ⟨index, anchor, placed, same, starts.symm, ?_⟩
    rw [(ends_of_getElem?_emittedLinks here there).1, sourceId, found]
    simp only [placed]
    exact namesOnly_anchorId apart placed

end Drawing

/-! ## Compiled networks -/

theorem nodes_eq_nil_of_edges {rows : List Record} {config : Config}
    (noEdges : (Graph.ofRows rows config : Graph Float).edges = []) :
    (Graph.ofRows rows config : Graph Float).nodes = [] := by
  cases resolved : Fields.resolve rows config with
  | none => simp [Graph.ofRows, resolved, Graph.empty]
  | some fields =>
      rw [Graph.ofRows_eq_merged resolved] at noEdges ⊢
      have noKeys := List.map_eq_nil_iff.mp noEdges
      have noRows : rows.filterMap (transfer? (α := Float) fields) = [] := by
        refine List.eq_nil_iff_forall_not_mem.mpr fun row present => ?_
        have known := mem_edgeKeys.mpr ⟨row, present, rfl⟩
        rw [noKeys] at known
        exact List.not_mem_nil known
      rw [noRows]
      rfl

/-- A network is its drawing, or nothing where there are no edges. -/
theorem compile_network {rows : Json} {given : List Record} {config : Config}
    (accepted : records rows = .ok given) (plain : config.overrides = none) (dark : Bool) :
    ChartKind.network.compile rows config dark =
      (chart? (Graph.ofRows given config) config dark).getD (.empty dark) := by
  simp only [ChartKind.compile, accepted, ChartKind.chart?, plain]
  cases chart? (Graph.ofRows given config) config dark <;> rfl

theorem map_id_emittedNodes {rows : Json} {given : List Record} {config : Config}
    (accepted : records rows = .ok given) (plain : config.overrides = none) (dark : Bool) :
    (emittedNodes (ChartKind.network.compile rows config dark)).map (·.textAt? "id") =
      (ids (Graph.ofRows given config)
        (anchors config.network (Graph.ofRows given config : Graph Float))).map some := by
  rw [compile_network accepted plain, chart?]
  split
  · next noEdges =>
      have noNodes := nodes_eq_nil_of_edges (List.isEmpty_iff.mp noEdges)
      simp [ids, anchors, noNodes, emittedNodes, emittedSeries_empty, Json.itemsAt]
  · exact Drawing.map_id_emittedNodes_of _ _ _

/-- **The ids of a compiled network are distinct exactly when no node is known by the id of an
anchor, and then every link names the target of its edge, and its source or else its own anchor.**
-/
theorem compiled_links_resolve {rows : Json} {given : List Record} {config : Config}
    (accepted : records rows = .ok given) (plain : config.overrides = none) (dark : Bool) :
    (((emittedNodes (ChartKind.network.compile rows config dark)).map (·.textAt? "id")).Nodup ↔
        Unclaimed (Graph.ofRows given config)
          (anchors config.network (Graph.ofRows given config : Graph Float))) ∧
      (Unclaimed (Graph.ofRows given config)
          (anchors config.network (Graph.ofRows given config : Graph Float)) →
        LinksResolve (ChartKind.network.compile rows config dark) config.network
          (Graph.ofRows given config)) := by
  have apart := nodup_ids_iff (nodup_ids_ofRows given config)
    (anchors config.network (Graph.ofRows given config : Graph Float))
  refine ⟨?_, fun unclaimed => ?_⟩
  · rw [map_id_emittedNodes accepted plain, List.nodup_map_iff (Option.some_injective _), apart]
  · rw [compile_network accepted plain, chart?]
    split
    · next noEdges =>
        have noEdges := List.isEmpty_iff.mp noEdges
        constructor
        case own => exact nodup_map_edge_anchors _ _
        case length => simp [noEdges, emittedLinks, emittedSeries_empty, Json.itemsAt]
        all_goals simp [noEdges]
    · exact Drawing.linksResolve_of (ends_ofRows given config) (apart.mpr unclaimed)

/-- An edge that leaves a hub. -/
def hubRows (target : String) : Json :=
  .array [.record [("source", "hub"), ("target", .string target)]]

/-- The hub is known to be one. -/
def hubConfig : Config :=
  { network := { boundaryAnchorSources := ["hub"] } }

/-- The link starts from the anchor of the hub. -/
theorem compiled_links_resolve_of_hub :
    ∃ given, records (hubRows "end") = .ok given ∧ hubConfig.overrides = none ∧
      LinksResolve (ChartKind.network.compile (hubRows "end") hubConfig false) hubConfig.network
        (Graph.ofRows given hubConfig) ∧
      (anchors hubConfig.network (Graph.ofRows given hubConfig : Graph Float)).length = 1 := by
  have accepted : records (hubRows "end") = .ok [[("source", "hub"), ("target", "end")]] := by rfl
  refine ⟨_, accepted, rfl, ?_, ?_⟩
  · apply (compiled_links_resolve accepted rfl false).2
    apply (nodup_ids_iff (nodup_ids_ofRows _ _) _).mp
    decide +kernel
  · decide +kernel

/-- A node may have the id of the anchor. -/
theorem clashing_ids_of_hub :
    ¬ ((emittedNodes
      (ChartKind.network.compile (hubRows "hub::anchor::0") hubConfig false)).map
        (·.textAt? "id")).Nodup := by
  have accepted : records (hubRows "hub::anchor::0") =
      .ok [[("source", "hub"), ("target", "hub::anchor::0")]] := by rfl
  rw [map_id_emittedNodes accepted rfl]
  decide +kernel

end ChartCompiler.Network
