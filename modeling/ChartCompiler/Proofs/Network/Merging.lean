import ChartCompiler.Chart.Network.Graph
import ChartCompiler.Proofs.Ledger
import ChartCompiler.Proofs.Number.Exact

/-!
# Rows merged into a graph

The graph of some rows can be written down without reading them one after the other
(`ofTransfers_eq_merged`).  Its nodes are the ids of the rows and its edges the keys of the rows,
each once and in the order in which they first come up, and what a node or an edge carries is
summed up over the rows that touch the node or have the key of the edge.

A graph is kept as a table here: the ids in order, and what is known of each id.  An operation at
the position of an id changes what is known of that id and nothing else (`modify_table`), which
reduces adding a row to one equation for each id.
-/

set_option autoImplicit false

namespace ChartCompiler.Network

variable {α : Type}

/-! ## What rows say -/

/-- What edges are merged by. -/
@[ext] structure Key where
  source : String
  target : String
  style : Option String
  deriving DecidableEq

namespace Transfer

/-- The ids of the ends of a row, and its style. -/
def key (row : Transfer α) : Key :=
  { source := row.source.id, target := row.target.id, style := row.style }

/-- Whether a node is at either end of a row. -/
def touches (id : String) (row : Transfer α) : Bool :=
  decide (row.source.id = id ∨ row.target.id = id)

end Transfer

/-- The ends of some rows, the source of a row before its target. -/
def endpoints (rows : List (Transfer α)) : List Endpoint :=
  rows.flatMap fun row => [row.source, row.target]

/-- The ids of the ends of some rows in the order in which they first come up. -/
def nodeIds (rows : List (Transfer α)) : List String :=
  distinct ((endpoints rows).map (·.id))

/-- The keys of some rows in the order in which they first come up. -/
def edgeKeys (rows : List (Transfer α)) : List Key :=
  distinct (rows.map Transfer.key)

variable {rows : List (Transfer α)} {row : Transfer α} {id : String}
  {key : Key}

theorem endpoints_append_singleton :
    endpoints (rows ++ [row]) = endpoints rows ++ [row.source] ++ [row.target] := by
  simp [endpoints]

theorem nodeIds_append_singleton :
    nodeIds (rows ++ [row]) = addNew row.target.id (addNew row.source.id (nodeIds rows)) := by
  rw [nodeIds, endpoints_append_singleton, List.map_append, List.map_append, List.map_singleton,
    List.map_singleton, distinct_append_singleton, distinct_append_singleton]
  rfl

theorem edgeKeys_append_singleton :
    edgeKeys (rows ++ [row]) = addNew row.key (edgeKeys rows) := by
  rw [edgeKeys, List.map_append, List.map_singleton, distinct_append_singleton]
  rfl

theorem nodup_nodeIds (rows : List (Transfer α)) : (nodeIds rows).Nodup :=
  nodup_distinct _

theorem nodup_edgeKeys (rows : List (Transfer α)) : (edgeKeys rows).Nodup :=
  nodup_distinct _

theorem mem_nodeIds :
    id ∈ nodeIds rows ↔ ∃ row ∈ rows, row.source.id = id ∨ row.target.id = id := by
  simp only [nodeIds, endpoints, mem_distinct, List.mem_map, List.mem_flatMap, List.mem_cons,
    List.not_mem_nil, or_false]
  constructor
  · rintro ⟨_, ⟨row, present, rfl | rfl⟩, rfl⟩
    · exact ⟨row, present, .inl rfl⟩
    · exact ⟨row, present, .inr rfl⟩
  · rintro ⟨row, present, rfl | rfl⟩
    · exact ⟨row.source, ⟨row, present, .inl rfl⟩, rfl⟩
    · exact ⟨row.target, ⟨row, present, .inr rfl⟩, rfl⟩

theorem mem_edgeKeys : key ∈ edgeKeys rows ↔ ∃ row ∈ rows, row.key = key := by
  rw [edgeKeys, mem_distinct, List.mem_map]

/-- The ends of a key are ids. -/
theorem mem_nodeIds_of_mem_edgeKeys (member : key ∈ edgeKeys rows) :
    key.source ∈ nodeIds rows ∧ key.target ∈ nodeIds rows := by
  obtain ⟨row, present, rfl⟩ := mem_edgeKeys.mp member
  exact ⟨mem_nodeIds.mpr ⟨row, present, .inl rfl⟩, mem_nodeIds.mpr ⟨row, present, .inr rfl⟩⟩

/-! ## The graph written down at once -/

variable [Quantity α]

/-- The node of an id as the ends of that id describe it. -/
def described (rows : List (Transfer α)) (id : String) : Node α :=
  ((endpoints rows).filter (·.id = id)).foldl
    (fun node endpoint => node.describe endpoint.name endpoint.category) (.fresh id)

/-- The node of an id after some rows. -/
def nodeOf (rows : List (Transfer α)) (id : String) : Node α :=
  { described rows id with
    value := Quantity.total ((rows.filter (Transfer.touches id)).map (·.weight))
    inValue := Quantity.total ((rows.filter (·.target.id = id)).map (·.weight))
    outValue := Quantity.total ((rows.filter (·.source.id = id)).map (·.weight))
    links := (edgeKeys rows).countP fun key => key.source = id ∨ key.target = id }

/-- The edge of a key after some rows, where the ends stand at their positions among some ids. -/
def edgeOf (ids : List String) (rows : List (Transfer α))
    (key : Key) : Edge α :=
  (rows.filter (·.key = key)).foldl Edge.absorb
    (.fresh (ids.idxOf key.source) (ids.idxOf key.target) key.style)

namespace Graph

/-- The graph with a node for each id of a list. -/
def table (ids : List String) (node : String → Node α) (edges : List (Edge α)) : Graph α :=
  { nodes := ids.map node, edges }

/-- The graph of some rows, written down at once. -/
def merged (rows : List (Transfer α)) : Graph α :=
  table (nodeIds rows) (nodeOf rows) ((edgeKeys rows).map (edgeOf (nodeIds rows) rows))

end Graph

@[simp] theorem id_described : (described rows id).id = id := by
  rw [described]
  induction (endpoints rows).filter (·.id = id) using List.reverseRecOn with
  | nil => rfl
  | append_singleton earlier endpoint ih =>
      rw [List.foldl_append]
      exact ih

@[simp] theorem id_nodeOf : (nodeOf rows id).id = id :=
  id_described

/-- Nothing is known of an id that no row has. -/
theorem nodeOf_of_not_mem (absent : id ∉ nodeIds rows) : nodeOf rows id = .fresh id := by
  have untouched : ∀ row ∈ rows, ¬ (row.source.id = id ∨ row.target.id = id) :=
    fun row present touched => absent (mem_nodeIds.mpr ⟨row, present, touched⟩)
  have noEnds : (endpoints rows).filter (·.id = id) = [] := by
    refine List.filter_eq_nil_iff.mpr fun endpoint member same => absent ?_
    exact mem_distinct.mpr (List.mem_map.mpr ⟨endpoint, member, of_decide_eq_true same⟩)
  have noRows (chosen : Transfer α → Bool)
      (touching : ∀ row, chosen row = true → row.source.id = id ∨ row.target.id = id) :
      rows.filter chosen = [] :=
    List.filter_eq_nil_iff.mpr fun row present taken =>
      untouched row present (touching row taken)
  have noKeys : (edgeKeys rows).countP (fun key => key.source = id ∨ key.target = id) = 0 := by
    refine List.countP_eq_zero.mpr fun key member touched => ?_
    obtain ⟨row, present, rfl⟩ := mem_edgeKeys.mp member
    exact untouched row present (of_decide_eq_true touched)
  have touching := noRows (Transfer.touches id) fun row => of_decide_eq_true
  have incoming := noRows (·.target.id = id) fun row same => .inr (of_decide_eq_true same)
  have outgoing := noRows (·.source.id = id) fun row same => .inl (of_decide_eq_true same)
  rw [nodeOf, described, noEnds, noKeys, touching, incoming, outgoing]
  rfl

/-! ## Operations on a table -/

/-- What an end says of a node: something when it has the id of the node. -/
def Node.hear (endpoint : Endpoint) (node : Node α) : Node α :=
  if node.id = endpoint.id then node.describe endpoint.name endpoint.category else node

omit [Quantity α] in
@[simp] theorem Node.id_hear (endpoint : Endpoint) (node : Node α) :
    (node.hear endpoint).id = node.id := by
  rw [hear]
  split <;> rfl

namespace Graph

section Table

variable {ids : List String} {node : String → Node α} {edges : List (Edge α)}

omit [Quantity α] in
/-- What is changed at the position of an id is changed for that id alone. -/
theorem modify_table (nodup : ids.Nodup) (id : String) (change : Node α → Node α) :
    ({ nodes := (ids.map node).modify (ids.idxOf id) change, edges } : Graph α) =
      table ids (fun other => if other = id then change (node other) else node other) edges :=
  congrArg (Graph.mk · edges) (modify_idxOf_map nodup node change)

omit [Quantity α] in
theorem position_table (named : ∀ id, (node id).id = id) (id : String) :
    (table ids node edges).position id = ids.idxOf id := by
  rw [position, table, List.findIdx_map, List.idxOf]
  exact congrArg (List.findIdx · ids) (funext fun other => by simp [named, beq_eq_decide])

/-- An end adds its id and describes the node of its id. -/
theorem intern_table (nodup : ids.Nodup) (named : ∀ id, (node id).id = id)
    {endpoint : Endpoint} (fresh : endpoint.id ∉ ids → node endpoint.id = .fresh endpoint.id) :
    (table ids node edges).intern endpoint =
      table (addNew endpoint.id ids) (fun id => (node id).hear endpoint) edges := by
  have present : (if ids.idxOf endpoint.id < (ids.map node).length then ids.map node
      else ids.map node ++ [.fresh endpoint.id]) = (addNew endpoint.id ids).map node := by
    by_cases member : endpoint.id ∈ ids
    · rw [if_pos (by simpa using List.idxOf_lt_length_of_mem member), addNew_of_mem member]
    · rw [if_neg (by simp [List.idxOf_eq_length member]), addNew_of_not_mem member,
        List.map_append, List.map_singleton, fresh member]
  rw [intern, position_table named]
  show ({ nodes := (if ids.idxOf endpoint.id < (ids.map node).length then ids.map node
    else ids.map node ++ [.fresh endpoint.id]).modify _ _, edges } : Graph α) = _
  rw [present, ← idxOf_addNew_self, modify_table (nodup_addNew nodup)]
  simp only [Node.hear, named]

omit [Quantity α] in
theorem countLink_table (nodup : ids.Nodup) (id : String) :
    (table ids node edges).countLink (ids.idxOf id) =
      table ids (fun other =>
        if other = id then { node other with links := (node other).links + 1 } else node other)
        edges :=
  modify_table nodup id _

theorem send_table (nodup : ids.Nodup) (id : String) (weight : α) :
    (table ids node edges).send (ids.idxOf id) weight =
      table ids (fun other =>
        if other = id then
          { node other with
            outValue := (node other).outValue + weight, value := (node other).value + weight }
        else node other) edges :=
  modify_table nodup id _

theorem receive_table (nodup : ids.Nodup) (id : String) (weight : α) (counted : Bool) :
    (table ids node edges).receive (ids.idxOf id) weight counted =
      table ids (fun other =>
        if other = id then
          { node other with
            inValue := (node other).inValue + weight
            value := if counted then (node other).value else (node other).value + weight }
        else node other) edges :=
  modify_table nodup id _

/-! ## Edges between ids -/

variable {keys : List Key}
  {edge : Key → Edge α}

/-- Edges stand for keys when their ends are at the positions of the ids of the key. -/
def Stands (ids : List String) (edge : Key → Edge α) : Prop :=
  ∀ key, (edge key).source = ids.idxOf key.source ∧ (edge key).target = ids.idxOf key.target ∧
    (edge key).style = key.style

omit [Quantity α] in
/-- Two ids at one position are one id. -/
theorem Stands.hasKey_iff (stands : Stands ids edge) {source target : String}
    {style : Option String} (sourceKnown : source ∈ ids) (targetKnown : target ∈ ids)
    (key : Key) :
    (edge key).hasKey (ids.idxOf source) (ids.idxOf target) style = true ↔
      key = ⟨source, target, style⟩ := by
  obtain ⟨atSource, atTarget, styled⟩ := stands key
  rw [Edge.hasKey, decide_eq_true_eq, atSource, atTarget, styled, eq_comm,
    List.idxOf_inj sourceKnown, eq_comm (b := ids.idxOf target), List.idxOf_inj targetKnown]
  constructor
  · rintro ⟨rfl, rfl, rfl⟩
    rfl
  · rintro rfl
    exact ⟨rfl, rfl, rfl⟩

omit [Quantity α] in
/-- A link is counted at both of its ends, once when they are one node. -/
theorem countLinks_table (nodup : ids.Nodup) {source : String} (known : source ∈ ids)
    (target : String) :
    (if ids.idxOf source = ids.idxOf target then
        (table ids node edges).countLink (ids.idxOf source)
      else ((table ids node edges).countLink (ids.idxOf source)).countLink (ids.idxOf target)) =
      table ids
        (fun id => if id = source ∨ id = target then
          { node id with links := (node id).links + 1 } else node id) edges := by
  rw [countLink_table nodup, countLink_table nodup]
  by_cases loop : source = target
  · subst loop
    simp
  · rw [if_neg fun same => loop ((List.idxOf_inj known).mp same)]
    refine congrArg (table ids · edges) (funext fun id => ?_)
    by_cases atSource : id = source
    · subst atSource
      simp [loop]
    · simp [atSource]

/-- A key that has no edge yet gets one, which is counted at its ends. -/
theorem connect_table (nodup : ids.Nodup) (stands : Stands ids edge) {source target : String}
    {style : Option String} (sourceKnown : source ∈ ids) (targetKnown : target ∈ ids)
    (absent : ⟨source, target, style⟩ ∉ keys →
      edge ⟨source, target, style⟩ = .fresh (ids.idxOf source) (ids.idxOf target) style) :
    (table ids node (keys.map edge)).connect (ids.idxOf source) (ids.idxOf target) style =
      table ids
        (fun id => if ⟨source, target, style⟩ ∉ keys ∧ (id = source ∨ id = target) then
          { node id with links := (node id).links + 1 } else node id)
        ((addNew ⟨source, target, style⟩ keys).map edge) := by
  have found : (table ids node (keys.map edge)).edges.any
      (Edge.hasKey (ids.idxOf source) (ids.idxOf target) style) = true ↔
        ⟨source, target, style⟩ ∈ keys := by
    simp only [table, List.any_map, List.any_eq_true, Function.comp_apply,
      stands.hasKey_iff sourceKnown targetKnown]
    exact ⟨fun ⟨key, member, same⟩ => same ▸ member, fun member => ⟨_, member, rfl⟩⟩
  rw [connect]
  by_cases member : ⟨source, target, style⟩ ∈ keys
  · rw [if_pos (found.mpr member), addNew_of_mem member]
    simp [member]
  · rw [if_neg (mt found.mp member), addNew_of_not_mem member, List.map_append,
      List.map_singleton, absent member]
    simp only [member, not_false_eq_true, true_and]
    rw [countLinks_table nodup sourceKnown]
    rfl

/-- A row is added to the edge of its key alone. -/
theorem absorb_table (stands : Stands ids edge) (row : Transfer α)
    (sourceKnown : row.source.id ∈ ids) (targetKnown : row.target.id ∈ ids) :
    (table ids node (keys.map edge)).absorb (ids.idxOf row.source.id) (ids.idxOf row.target.id)
        row =
      table ids node
        (keys.map fun key => if key = row.key then (edge key).absorb row else edge key) := by
  rw [absorb, table, List.map_map]
  refine congrArg (Graph.mk _) (List.map_congr_left fun key _ => ?_)
  simp only [Function.comp_apply, stands.hasKey_iff sourceKnown targetKnown]
  rfl

end Table

end Graph

/-! ## The run -/

/-- What a row changes about a node, where it may have opened a new edge. -/
def Node.afterRow (row : Transfer α) (opened : Bool) (node : Node α) : Node α :=
  { (node.hear row.source).hear row.target with
    value := if row.touches node.id then node.value + row.weight else node.value
    inValue := if row.target.id = node.id then node.inValue + row.weight else node.inValue
    outValue := if row.source.id = node.id then node.outValue + row.weight else node.outValue
    links := if opened && row.touches node.id then node.links + 1 else node.links }

/-- Adding a row to a table adds its ids and its key, changes the nodes at its ends, and adds the
row to the edge of its key. -/
theorem Graph.add_table {ids : List String} {node : String → Node α}
    {keys : List Key}
    {edge : Key → Edge α} (nodup : ids.Nodup)
    (named : ∀ id, (node id).id = id) (fresh : ∀ id, id ∉ ids → node id = .fresh id)
    (stands : Stands (addNew row.target.id (addNew row.source.id ids)) edge)
    (absent : ∀ key, key ∉ keys →
      edge key = .fresh ((addNew row.target.id (addNew row.source.id ids)).idxOf key.source)
        ((addNew row.target.id (addNew row.source.id ids)).idxOf key.target) key.style) :
    (table ids node (keys.map edge)).add row =
      table (addNew row.target.id (addNew row.source.id ids))
        (fun id => (node id).afterRow row (row.key ∉ keys))
        ((addNew row.key keys).map fun key =>
          if key = row.key then (edge key).absorb row else edge key) := by
  have nodup' : (addNew row.target.id (addNew row.source.id ids)).Nodup :=
    nodup_addNew (nodup_addNew nodup)
  have sourceKnown : row.source.id ∈ addNew row.target.id (addNew row.source.id ids) := by simp
  have targetKnown : row.target.id ∈ addNew row.target.id (addNew row.source.id ids) := by simp
  rw [add, intern_table nodup named (fresh _), intern_table (nodup_addNew nodup) (by simp [named]),
    position_table (by simp [named]), position_table (by simp [named])]
  · show ((((table _ _ _).connect _ _ _).absorb _ _ row).send _ _).receive _ _ _ = _
    rw [connect_table nodup' stands sourceKnown targetKnown (absent _),
      absorb_table stands row sourceKnown targetKnown, send_table nodup', receive_table nodup']
    refine congrArg (table _ · _) (funext fun id => ?_)
    -- Each condition compares the id of the node with an end of the row.
    have key : Key.mk row.source.id row.target.id row.style = row.key := rfl
    simp only [List.idxOf_inj sourceKnown, key]
    have same := named id
    generalize node id = known at same ⊢
    subst same
    by_cases opened : row.key ∈ keys <;> by_cases atSource : row.source.id = known.id <;>
      by_cases atTarget : row.target.id = known.id <;>
        simp [Node.afterRow, Node.hear, Node.describe, Transfer.touches, opened, atSource,
          atTarget, eq_comm (a := known.id)]
  · intro outside
    simp only [mem_addNew, not_or] at outside
    rw [fresh _ outside.1, Node.hear]
    exact if_neg outside.2

omit [Quantity α] in
/-- What an end says of a node does not depend on the sums of the node. -/
theorem Node.hear_withSums (node : Node α) (endpoint : Endpoint) (value inValue outValue : α)
    (links : Nat) :
    ({ node with value, inValue, outValue, links } : Node α).hear endpoint =
      { node.hear endpoint with value, inValue, outValue, links } := by
  unfold hear
  split <;> rfl

theorem described_append_singleton :
    described (rows ++ [row]) id = ((described rows id).hear row.source).hear row.target := by
  have last (node : Node α) (same : node.id = id) (endpoint : Endpoint) :
      ([endpoint].filter (·.id = id)).foldl
        (fun node endpoint => node.describe endpoint.name endpoint.category) node =
      node.hear endpoint := by
    by_cases here : endpoint.id = id
    · simp [Node.hear, same, here]
    · simp [Node.hear, same, here, Ne.symm here]
  have before : ((endpoints rows).filter (·.id = id)).foldl
      (fun node endpoint => node.describe endpoint.name endpoint.category) (.fresh id) =
      described rows id :=
    rfl
  rw [described, endpoints_append_singleton, List.filter_append, List.filter_append,
    List.foldl_append, List.foldl_append, before, last _ id_described,
    last _ ((Node.id_hear _ _).trans id_described)]

theorem total_filter_append_singleton (chosen : Transfer α → Bool) :
    Quantity.total (((rows ++ [row]).filter chosen).map (·.weight)) =
      if chosen row then Quantity.total ((rows.filter chosen).map (·.weight)) + row.weight
      else Quantity.total ((rows.filter chosen).map (·.weight)) := by
  by_cases taken : chosen row <;> simp [taken]

theorem nodeOf_append_singleton :
    nodeOf (rows ++ [row]) id = (nodeOf rows id).afterRow row (row.key ∉ edgeKeys rows) := by
  have counted : (edgeKeys (rows ++ [row])).countP (fun key => key.source = id ∨ key.target = id) =
      if row.key ∉ edgeKeys rows && row.touches id then
        (edgeKeys rows).countP (fun key => key.source = id ∨ key.target = id) + 1
      else (edgeKeys rows).countP fun key => key.source = id ∨ key.target = id := by
    rw [edgeKeys_append_singleton]
    by_cases member : row.key ∈ edgeKeys rows
    · simp [addNew_of_mem member, member]
    · have touching : decide (row.key.source = id ∨ row.key.target = id) = row.touches id := rfl
      rw [addNew_of_not_mem member, List.countP_append, List.countP_singleton, touching]
      cases row.touches id <;> simp [member]
  have heard : ((nodeOf rows id).hear row.source).hear row.target =
      { ((described rows id).hear row.source).hear row.target with
        value := (nodeOf rows id).value
        inValue := (nodeOf rows id).inValue
        outValue := (nodeOf rows id).outValue
        links := (nodeOf rows id).links } :=
    (congrArg (Node.hear row.target)
      (Node.hear_withSums (described rows id) row.source _ _ _ _)).trans
      (Node.hear_withSums _ row.target _ _ _ _)
  rw [Node.afterRow, heard, id_nodeOf, nodeOf, described_append_singleton, counted,
    total_filter_append_singleton, total_filter_append_singleton, total_filter_append_singleton]
  simp only [decide_eq_true_eq]
  rfl

/-! ## Edges of rows -/

theorem edgeOf_append_singleton (ids : List String) :
    edgeOf ids (rows ++ [row]) key =
      if key = row.key then (edgeOf ids rows key).absorb row else edgeOf ids rows key := by
  by_cases same : key = row.key
  · subst same
    simp [edgeOf]
  · simp [edgeOf, same, Ne.symm same]

theorem stands_edgeOf (ids : List String) (rows : List (Transfer α)) :
    Graph.Stands ids (edgeOf ids rows) := by
  intro key
  rw [edgeOf]
  induction rows.filter (·.key = key) using List.reverseRecOn with
  | nil => exact ⟨rfl, rfl, rfl⟩
  | append_singleton earlier row ih =>
      rw [List.foldl_append]
      exact ih

theorem edgeOf_of_not_mem (ids : List String) (absent : key ∉ edgeKeys rows) :
    edgeOf ids rows key = .fresh (ids.idxOf key.source) (ids.idxOf key.target) key.style := by
  have none : rows.filter (·.key = key) = [] :=
    List.filter_eq_nil_iff.mpr fun row present same =>
      absent (mem_edgeKeys.mpr ⟨row, present, of_decide_eq_true same⟩)
  rw [edgeOf, none, List.foldl_nil]

/-- Ids that are added later do not move the ends of an edge. -/
theorem edgeOf_addNew {ids : List String} (id : String) (source : key.source ∈ ids)
    (target : key.target ∈ ids) : edgeOf (addNew id ids) rows key = edgeOf ids rows key := by
  rw [edgeOf, edgeOf, idxOf_addNew source, idxOf_addNew target]

namespace Graph

theorem add_merged : (merged rows).add row = merged (rows ++ [row]) := by
  have moved : (edgeKeys rows).map (edgeOf (nodeIds rows) rows) =
      (edgeKeys rows).map
        (edgeOf (addNew row.target.id (addNew row.source.id (nodeIds rows))) rows) := by
    refine List.map_congr_left fun key member => ?_
    obtain ⟨source, target⟩ := mem_nodeIds_of_mem_edgeKeys member
    rw [edgeOf_addNew _ (mem_addNew.mpr (.inl source)) (mem_addNew.mpr (.inl target)),
      edgeOf_addNew _ source target]
  have nodes : nodeOf (rows ++ [row]) = fun id =>
      (nodeOf rows id).afterRow row (row.key ∉ edgeKeys rows) :=
    funext fun _ => nodeOf_append_singleton
  have edges (ids : List String) : edgeOf ids (rows ++ [row]) = fun key =>
      if key = row.key then (edgeOf ids rows key).absorb row else edgeOf ids rows key :=
    funext fun _ => edgeOf_append_singleton ids
  rw [merged, moved, add_table (nodup_nodeIds rows) (fun _ => id_nodeOf)
    (fun _ => nodeOf_of_not_mem) (stands_edgeOf _ rows) (fun _ => edgeOf_of_not_mem _), merged,
    nodeIds_append_singleton, edgeKeys_append_singleton, nodes, edges]

/-- **Reading rows one after the other gives the graph that is written down at once.** -/
theorem ofTransfers_eq_merged (rows : List (Transfer α)) : ofTransfers rows = merged rows := by
  induction rows using List.reverseRecOn with
  | nil => rfl
  | append_singleton rows row ih =>
      rw [ofTransfers, List.foldl_append, List.foldl_cons, List.foldl_nil]
      show (ofTransfers rows).add row = _
      rw [ih, add_merged]

end Graph

end ChartCompiler.Network
