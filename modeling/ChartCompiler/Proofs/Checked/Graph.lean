import ChartCompiler.Proofs.Checked.Operation
import ChartCompiler.Proofs.Network.Totals

/-!
# Nodes and edges with their checks

A row interns its two ends and connects them, and from then on it uses nothing but the positions it
was given.  The position of a node does not change while others are added, and no two edges have the
same ends and style, so changing the edge at its position is changing the edge of the row.
-/

set_option autoImplicit false

namespace ChartCompiler.Network

variable {α : Type} [Quantity α]

namespace Graph

/-! ## Adding a row -/

/-- `intern` with its checks, and the position of the node. -/
def internChecked (graph : Graph α) (endpoint : Endpoint) : Checked (Nat × Graph α) := do
  let (position, nodes) ←
    Checked.enroll (fun node => node.id = endpoint.id) (.fresh endpoint.id) graph.nodes
  let nodes ← Checked.change nodes position fun node =>
    node.describe endpoint.name endpoint.category
  return (position, { graph with nodes })

def countLinkChecked (graph : Graph α) (node : Nat) : Checked (Graph α) := do
  let nodes ← Checked.change graph.nodes node fun node => { node with links := node.links + 1 }
  return { graph with nodes }

/-- `connect` with its checks, and the position of the edge. -/
def connectChecked (graph : Graph α) (source target : Nat) (style : Option String) :
    Checked (Nat × Graph α) :=
  match graph.edges.findIdx? (Edge.hasKey source target style) with
  | some position => pure (position, graph)
  | none => do
    let linked ← graph.countLinkChecked source
    let linked ← (if source = target then pure linked else linked.countLinkChecked target)
    let edges := linked.edges ++ [.fresh source target style]
    return (← Checked.minus edges.length 1, { linked with edges })

def sendChecked (graph : Graph α) (node : Nat) (weight : α) : Checked (Graph α) := do
  let nodes ← Checked.change graph.nodes node fun node =>
    { node with outValue := node.outValue + weight, value := node.value + weight }
  return { graph with nodes }

def receiveChecked (graph : Graph α) (node : Nat) (weight : α) (counted : Bool) :
    Checked (Graph α) := do
  let nodes ← Checked.change graph.nodes node fun node =>
    { node with
      inValue := node.inValue + weight
      value := if counted then node.value else node.value + weight }
  return { graph with nodes }

/-- Adds a row whose ends have been interned. -/
def mergeChecked (graph : Graph α) (source target : Nat) (row : Transfer α) :
    Checked (Graph α) := do
  let (edge, graph) ← graph.connectChecked source target row.style
  let edges ← Checked.change graph.edges edge fun edge => edge.absorb row
  let sent ← sendChecked { graph with edges } source row.weight
  sent.receiveChecked target row.weight (decide (source = target))

def addChecked (graph : Graph α) (row : Transfer α) : Checked (Graph α) := do
  let (source, graph) ← graph.internChecked row.source
  let (target, graph) ← graph.internChecked row.target
  graph.mergeChecked source target row

variable {graph : Graph α}

/-! ## Interning -/

omit [Quantity α] in
theorem position_eq_idxOf (graph : Graph α) (id : String) :
    graph.position id = (graph.nodes.map (·.id)).idxOf id := by
  rw [position, List.idxOf, List.findIdx_map]
  rfl

theorem nodes_intern (graph : Graph α) (endpoint : Endpoint) :
    (graph.intern endpoint).nodes =
      (Checked.enrolled (fun node => node.id = endpoint.id) (.fresh endpoint.id) graph.nodes).modify
        (graph.position endpoint.id) fun node => node.describe endpoint.name endpoint.category := by
  have known : graph.position endpoint.id < graph.nodes.length ↔
      (graph.nodes.any fun node => node.id = endpoint.id) = true := by
    rw [position, List.findIdx_lt_length, List.any_eq_true]
  simp only [intern, Checked.enrolled, known]

theorem internChecked_eq (graph : Graph α) (endpoint : Endpoint) :
    graph.internChecked endpoint =
      pure (graph.position endpoint.id, graph.intern endpoint) := by
  simp only [internChecked, Checked.enroll_eq, pure_bind,
    Checked.change_eq (Checked.findIdx_lt_length_enrolled _ _ _)]
  have nodes := nodes_intern graph endpoint
  rw [position] at nodes
  rw [← nodes]
  rfl

theorem ids_intern (graph : Graph α) (endpoint : Endpoint) :
    (graph.intern endpoint).nodes.map (·.id) =
      addNew endpoint.id (graph.nodes.map (·.id)) := by
  have kept (nodes : List (Node α)) (position : Nat) (name category : Option String) :
      (nodes.modify position fun node => node.describe name category).map (·.id) =
        nodes.map (·.id) := by
    refine List.ext_getElem (by simp) fun place here here' => ?_
    simp only [List.getElem_map, List.getElem_modify]
    split <;> rfl
  have known : (graph.nodes.any fun node => node.id = endpoint.id) = true ↔
      endpoint.id ∈ graph.nodes.map (·.id) := by
    simp
  simp only [nodes_intern, kept, Checked.enrolled, known, addNew]
  split
  · rfl
  · rw [List.map_append]
    rfl

/-- A node that is added does not move the others. -/
theorem position_intern {id : String} (known : id ∈ graph.nodes.map (·.id))
    (endpoint : Endpoint) : (graph.intern endpoint).position id = graph.position id := by
  rw [position_eq_idxOf, ids_intern, idxOf_addNew known, ← position_eq_idxOf]

theorem position_intern_self (graph : Graph α) (endpoint : Endpoint) :
    (graph.intern endpoint).position endpoint.id = graph.position endpoint.id := by
  rw [position_eq_idxOf, ids_intern, idxOf_addNew_self, ← position_eq_idxOf]

omit [Quantity α] in
theorem position_lt_length {id : String} (known : id ∈ graph.nodes.map (·.id)) :
    graph.position id < graph.nodes.length := by
  rw [position_eq_idxOf, ← List.length_map (·.id)]
  exact List.idxOf_lt_length_of_mem known

/-! ## Connecting -/

omit [Quantity α] in
theorem countLinkChecked_eq {node : Nat} (inside : node < graph.nodes.length) :
    graph.countLinkChecked node = pure (graph.countLink node) := by
  rw [countLinkChecked, Checked.change_eq inside, pure_bind]
  rfl

theorem connectChecked_eq {source target : Nat} (sourceInside : source < graph.nodes.length)
    (targetInside : target < graph.nodes.length) (style : Option String) :
    graph.connectChecked source target style =
      pure (graph.edges.findIdx (Edge.hasKey source target style),
        graph.connect source target style) := by
  have linked : target < (graph.countLink source).nodes.length := by
    simpa [countLink] using targetInside
  rw [connectChecked, connect, ← List.findIdx?_isSome]
  cases found : graph.edges.findIdx? (Edge.hasKey source target style) with
  | some position =>
      obtain ⟨-, same⟩ := List.findIdx?_eq_some_iff_findIdx_eq.mp found
      simp [same]
  | none =>
      have absent := List.findIdx?_eq_none_iff_findIdx_eq.mp found
      simp only [countLinkChecked_eq sourceInside, countLinkChecked_eq linked, pure_bind, absent,
        Option.isSome_none, Checked.minus_length_append_singleton]
      split <;> rfl

/-! ## Absorbing -/

/-- No two edges have the same ends and style. -/
def Merged (graph : Graph α) : Prop :=
  (graph.edges.map fun edge => (edge.source, edge.target, edge.style)).Nodup

/-- Changing the items that are sought is changing the first of them, when there is at most one. -/
theorem map_ite_eq_modify {β : Type} {sought : β → Bool} {items : List β}
    (once : items.Pairwise fun first second => ¬ (sought first ∧ sought second))
    (update : β → β) :
    items.map (fun item => if sought item then update item else item) =
      items.modify (items.findIdx sought) update := by
  induction items with
  | nil => rfl
  | cons first rest ih =>
      obtain ⟨apart, once⟩ := List.pairwise_cons.mp once
      by_cases here : sought first
      · have others : rest.map (fun item => if sought item then update item else item) = rest := by
          refine (List.map_congr_left fun item member => ?_).trans (List.map_id _)
          exact if_neg fun twice => apart item member ⟨here, twice⟩
        simp [here, others, List.findIdx_cons]
      · simp [here, ih once, List.findIdx_cons]

theorem edges_connect (graph : Graph α) (source target : Nat) (style : Option String) :
    (graph.connect source target style).edges =
      Checked.enrolled (Edge.hasKey source target style) (.fresh source target style)
        graph.edges := by
  rw [connect, Checked.enrolled]
  split
  · rfl
  · split <;> rfl

theorem length_nodes_connect (graph : Graph α) (source target : Nat) (style : Option String) :
    (graph.connect source target style).nodes.length = graph.nodes.length := by
  rw [connect]
  split
  · rfl
  · split <;> simp [countLink]

/-- After ends have been connected, one edge has these ends and this style. -/
theorem pairwise_edges_connect (apart : graph.Merged) (source target : Nat)
    (style : Option String) :
    (graph.connect source target style).edges.Pairwise fun first second =>
      ¬ (first.hasKey source target style ∧ second.hasKey source target style) := by
  have once : graph.edges.Pairwise fun first second =>
      ¬ (first.hasKey source target style ∧ second.hasKey source target style) := by
    refine (List.pairwise_map.mp apart).imp fun {first second} differ both => differ ?_
    simp only [Edge.hasKey, decide_eq_true_eq] at both
    obtain ⟨⟨rfl, rfl, rfl⟩, ⟨source, target, styled⟩⟩ := both
    rw [source, target, styled]
  rw [edges_connect, Checked.enrolled]
  split
  · exact once
  · rename_i absent
    refine List.pairwise_append.mpr ⟨once, List.pairwise_singleton _ _, ?_⟩
    intro first member second _ both
    exact absent (List.any_eq_true.mpr ⟨first, member, both.1⟩)

/-- Changing the edge of a row is adding the row to it. -/
theorem absorb_connect (apart : graph.Merged) (source target : Nat) (row : Transfer α) :
    (graph.connect source target row.style).absorb source target row =
      { graph.connect source target row.style with
        edges := (graph.connect source target row.style).edges.modify
          (graph.edges.findIdx (Edge.hasKey source target row.style)) fun edge =>
            edge.absorb row } := by
  have fresh : Edge.hasKey source target row.style
      (.fresh source target row.style : Edge α) = true := by
    simp [Edge.hasKey, Edge.fresh]
  rw [absorb, map_ite_eq_modify (pairwise_edges_connect apart source target row.style),
    edges_connect, Checked.findIdx_enrolled fresh]

/-! ## Whole rows -/

theorem sendChecked_eq {node : Nat} (inside : node < graph.nodes.length)
    (weight : α) : graph.sendChecked node weight = pure (graph.send node weight) := by
  rw [sendChecked, Checked.change_eq inside, pure_bind]
  rfl

theorem receiveChecked_eq {node : Nat} (inside : node < graph.nodes.length) (weight : α)
    (counted : Bool) :
    graph.receiveChecked node weight counted = pure (graph.receive node weight counted) := by
  rw [receiveChecked, Checked.change_eq inside, pure_bind]
  rfl

theorem mergeChecked_eq (apart : graph.Merged) {source target : Nat}
    (sourceInside : source < graph.nodes.length) (targetInside : target < graph.nodes.length)
    (row : Transfer α) :
    graph.mergeChecked source target row =
      pure ((((graph.connect source target row.style).absorb source target row).send source
        row.weight).receive target row.weight (decide (source = target))) := by
  have edgeInside : graph.edges.findIdx (Edge.hasKey source target row.style) <
      (graph.connect source target row.style).edges.length := by
    rw [edges_connect]
    exact Checked.findIdx_lt_length_enrolled _ _ _
  let absorbed := (graph.connect source target row.style).absorb source target row
  have nodes : absorbed.nodes.length = graph.nodes.length := length_nodes_connect _ _ _ _
  have sent : (absorbed.send source row.weight).nodes.length = graph.nodes.length := by
    rw [← nodes]
    exact List.length_modify _ _ _
  rw [mergeChecked, connectChecked_eq sourceInside targetInside, pure_bind]
  show (do let edges ← Checked.change _ _ _; _) = _
  rw [Checked.change_eq edgeInside, pure_bind, ← absorb_connect apart,
    sendChecked_eq (nodes.symm ▸ sourceInside), pure_bind]
  exact receiveChecked_eq (sent.symm ▸ targetInside) _ _

/-- A row is added at positions of nodes and of an edge. -/
theorem addChecked_eq (apart : graph.Merged) (row : Transfer α) :
    graph.addChecked row = pure (graph.add row) := by
  have ids : ((graph.intern row.source).intern row.target).nodes.map (·.id) =
      addNew row.target.id (addNew row.source.id (graph.nodes.map (·.id))) := by
    rw [ids_intern, ids_intern]
  have sourceKnown : row.source.id ∈ (graph.intern row.source).nodes.map (·.id) := by
    rw [ids_intern]
    exact mem_addNew.mpr (.inr rfl)
  have source : ((graph.intern row.source).intern row.target).position row.source.id =
      graph.position row.source.id := by
    rw [position_intern sourceKnown, position_intern_self]
  have target : ((graph.intern row.source).intern row.target).position row.target.id =
      (graph.intern row.source).position row.target.id :=
    position_intern_self _ _
  have sourceInside := position_lt_length
    (ids ▸ mem_addNew.mpr (.inl (mem_addNew.mpr (.inr rfl))) :
      row.source.id ∈ ((graph.intern row.source).intern row.target).nodes.map (·.id))
  have targetInside := position_lt_length
    (ids ▸ mem_addNew.mpr (.inr rfl) :
      row.target.id ∈ ((graph.intern row.source).intern row.target).nodes.map (·.id))
  have merged : ((graph.intern row.source).intern row.target).Merged := apart
  simp only [addChecked, internChecked_eq, pure_bind, add]
  rw [← source, ← target]
  exact mergeChecked_eq merged sourceInside targetInside row

/-! ## The graph of some records -/

def ofRowsChecked (rows : List Record) (config : Config) : Checked (Graph α) :=
  match Fields.resolve rows config with
  | none => pure empty
  | some fields => (rows.filterMap (transfer? fields)).foldlM addChecked empty

theorem ofRowsChecked_eq (rows : List Record) (config : Config) :
    ofRowsChecked rows config = (pure (ofRows rows config) : Checked (Graph α)) := by
  rw [ofRowsChecked, ofRows]
  cases Fields.resolve rows config with
  | none => rfl
  | some fields =>
      refine Checked.foldlM_eq (fun graph => ∃ earlier, graph = merged earlier) ⟨[], rfl⟩ ?_ ?_
      · rintro _ row - ⟨earlier, rfl⟩
        exact addChecked_eq nodup_ends_merged row
      · rintro _ row - ⟨earlier, rfl⟩
        exact ⟨earlier ++ [row], add_merged⟩

end Graph

end ChartCompiler.Network
