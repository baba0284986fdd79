import ChartCompiler.Proofs.Network.Merging

/-!
# What a graph sums up

The graph of some records sums up the rows that name both ends (`ofRows_summarises`).  Its nodes
are the ends of these rows and its edges their keys, both in the order in which they first come
up, and the quantities of a node or an edge are the sums of the rows that belong to it, in the
order of the rows.

A node adds up the rows that touch it while its edges add up the rows between the same two ends, so
with rounding the two can differ.  Over the rational numbers they agree: what leaves a node is what
its outgoing edges carry, and what enters it is what its incoming edges carry.
-/

set_option autoImplicit false

namespace ChartCompiler.Network

variable {α : Type} [Quantity α]

/-! ## Rows that count -/

namespace Fields

/-- Whether a row names both ends. -/
def accepts (fields : Fields) (row : Record) : Bool :=
  (row.label? fields.source).isSome && (row.label? fields.target).isSome

/-- A row is read in the fields that are found. -/
structure Reads (fields : Fields) (row : Record) (transfer : Transfer α) : Prop where
  source : row.label? fields.source = some transfer.source.id
  target : row.label? fields.target = some transfer.target.id
  /-- The style is missing where there is no label. -/
  style : transfer.style = fields.style.bind row.label?
  /-- The weight is zero where it does not read as a number. -/
  weight : transfer.weight =
    ((fields.weight.bind row.number?).map Quantity.ofFloat).getD Quantity.zero
  /-- The amount is missing where it does not read as a number. -/
  amount : transfer.amount = (fields.amount.bind row.number?).map Quantity.ofFloat
  /-- The number of transfers is missing where it does not read as a number. -/
  count : transfer.count = (fields.count.bind row.number?).map Quantity.ofFloat

/-- A row that names both ends is read. -/
theorem transfer?_of_accepts {fields : Fields} {row : Record}
    (accepted : fields.accepts row = true) :
    ∃ transfer : Transfer α, transfer? fields row = some transfer ∧ fields.Reads row transfer := by
  obtain ⟨left, right⟩ := Bool.and_eq_true_iff.mp accepted
  obtain ⟨source, fromSource⟩ := Option.isSome_iff_exists.mp left
  obtain ⟨target, toTarget⟩ := Option.isSome_iff_exists.mp right
  simp only [transfer?, fromSource, toTarget]
  exact ⟨_, rfl, fromSource, toTarget, rfl, rfl, rfl, rfl⟩

/-- A row that does not name both ends is left out. -/
theorem transfer?_of_not_accepts {fields : Fields} {row : Record}
    (refused : ¬ fields.accepts row = true) :
    (transfer? fields row : Option (Transfer α)) = none := by
  rw [accepts] at refused
  cases source : row.label? fields.source with
  | none => simp [transfer?, source]
  | some id =>
      have missing : row.label? fields.target = none := by simpa [source] using refused
      simp [transfer?, missing]

/-- Exactly the rows that name both ends are read, in their order. -/
theorem reads_filterMap (fields : Fields) (rows : List Record) :
    List.Forall₂ (fields.Reads (α := α)) (rows.filter fields.accepts)
      (rows.filterMap (transfer? fields)) :=
  forall₂_filter_filterMap (fun _ => transfer?_of_accepts) (fun _ => transfer?_of_not_accepts) rows

end Fields

/-! ## Sums along the edges of a key -/

theorem addTo_totalOfPresent (values : List (Option α)) (value : Option α) :
    addTo (Quantity.totalOfPresent values) value = Quantity.totalOfPresent (values ++ [value]) := by
  cases value with
  | none => rw [Quantity.totalOfPresent_append_none, addTo]
  | some value => rw [Quantity.totalOfPresent_append_some, addTo]

/-- An edge adds up what its rows carry. -/
theorem foldl_absorb_fresh (source target : Nat) (style : Option String)
    (rows : List (Transfer α)) :
    (rows.foldl Edge.absorb (.fresh source target style)).value =
        Quantity.total (rows.map (·.weight)) ∧
      (rows.foldl Edge.absorb (.fresh source target style)).amount =
        Quantity.totalOfPresent (rows.map (·.amount)) ∧
      (rows.foldl Edge.absorb (.fresh source target style)).count =
        Quantity.totalOfPresent (rows.map (·.count)) := by
  induction rows using List.reverseRecOn with
  | nil => exact ⟨rfl, rfl, rfl⟩
  | append_singleton rows row ih =>
      obtain ⟨value, amount, count⟩ := ih
      simp only [List.foldl_append, List.foldl_cons, List.foldl_nil, List.map_append, List.map_cons,
        List.map_nil, Quantity.total_append_singleton, ← addTo_totalOfPresent, Edge.absorb, value,
        amount, count, and_self]

namespace Graph

/-- The ids at the ends of an edge, and its style.  There is no key without nodes at both ends. -/
def key? (graph : Graph α) (edge : Edge α) : Option Key := do
  let source ← graph.nodes[edge.source]?
  let target ← graph.nodes[edge.target]?
  return { source := source.id, target := target.id, style := edge.style }

/-- A graph sums up rows. -/
structure Summarises (graph : Graph α) (rows : List (Transfer α)) : Prop where
  /-- The nodes are the ends of the rows, each source before its target. -/
  nodes : FirstSeen (graph.nodes.map (·.id))
    (rows.flatMap fun row => [row.source.id, row.target.id])
  /-- No two nodes have the same id. -/
  ids : (graph.nodes.map (·.id)).Nodup
  /-- Both ends of an edge are nodes. -/
  ends : ∀ edge ∈ graph.edges, edge.source < graph.nodes.length ∧ edge.target < graph.nodes.length
  /-- The edges are the keys of the rows. -/
  edges : FirstSeen (graph.edges.map graph.key?) (rows.map fun row => some row.key)
  /-- No two edges have the same ends and style. -/
  keys : (graph.edges.map fun edge => (edge.source, edge.target, edge.style)).Nodup
  /-- An edge carries the weights of the rows of its key. -/
  value : ∀ edge ∈ graph.edges, edge.value =
    Quantity.total ((rows.filter fun row => graph.key? edge = some row.key).map (·.weight))
  /-- An edge carries the amounts of the rows of its key. -/
  amount : ∀ edge ∈ graph.edges, edge.amount =
    Quantity.totalOfPresent ((rows.filter fun row => graph.key? edge = some row.key).map (·.amount))
  /-- An edge carries the counts of the rows of its key. -/
  count : ∀ edge ∈ graph.edges, edge.count =
    Quantity.totalOfPresent ((rows.filter fun row => graph.key? edge = some row.key).map (·.count))
  /-- What leaves a node is the weight of the rows that start from it. -/
  outValue : ∀ node ∈ graph.nodes, node.outValue =
    Quantity.total ((rows.filter (·.source.id = node.id)).map (·.weight))
  /-- What enters a node is the weight of the rows that lead to it. -/
  inValue : ∀ node ∈ graph.nodes, node.inValue =
    Quantity.total ((rows.filter (·.target.id = node.id)).map (·.weight))
  /-- What touches a node is the weight of the rows with the node at either end. -/
  touching : ∀ node ∈ graph.nodes, node.value =
    Quantity.total ((rows.filter fun row =>
      row.source.id = node.id ∨ row.target.id = node.id).map (·.weight))
  /-- A node has as many links as there are edges with the node at either end. -/
  links : ∀ position node, graph.nodes[position]? = some node →
    node.links = graph.edges.countP fun edge => edge.source = position ∨ edge.target = position

/-- What leaves and what enters a node is what its edges carry. -/
structure Balanced (graph : Graph ℚ) : Prop where
  /-- The edges that start from a node carry what leaves it. -/
  outValue : ∀ position node, graph.nodes[position]? = some node →
    node.outValue = ((graph.edges.filter (·.source = position)).map (·.value)).sum
  /-- The edges that lead to a node carry what enters it. -/
  inValue : ∀ position node, graph.nodes[position]? = some node →
    node.inValue = ((graph.edges.filter (·.target = position)).map (·.value)).sum

/-! ## The graph that is written down at once -/

section Merged

variable {rows : List (Transfer α)}

theorem ids_merged : (merged rows).nodes.map (·.id) = nodeIds rows := by
  rw [merged, table, List.map_map]
  exact (List.map_congr_left fun _ _ => id_nodeOf).trans (List.map_id _)

/-- The nodes are in the order of their ids. -/
theorem nodeOf_of_getElem? {position : Nat} {node : Node α}
    (found : (merged rows).nodes[position]? = some node) :
    ∃ id, (nodeIds rows)[position]? = some id ∧ nodeOf rows id = node := by
  rw [merged, table, List.getElem?_map] at found
  exact Option.map_eq_some_iff.mp found

theorem key?_merged {key : Key} (member : key ∈ edgeKeys rows) :
    (merged rows).key? (edgeOf (nodeIds rows) rows key) = some key := by
  obtain ⟨source, target⟩ := mem_nodeIds_of_mem_edgeKeys member
  obtain ⟨atSource, atTarget, styled⟩ := stands_edgeOf (nodeIds rows) rows key
  have node {id : String} (known : id ∈ nodeIds rows) :
      (merged rows).nodes[(nodeIds rows).idxOf id]? = some (nodeOf rows id) := by
    rw [merged, table, List.getElem?_map, List.getElem?_idxOf known, Option.map_some]
  rw [key?, atSource, atTarget, styled, node source, node target]
  simp

/-- The rows of an edge are the rows of its key. -/
theorem filter_key?_merged {key : Key}
    (member : key ∈ edgeKeys rows) :
    (rows.filter fun row => (merged rows).key? (edgeOf (nodeIds rows) rows key) = some row.key) =
      rows.filter (·.key = key) := by
  rw [key?_merged member]
  exact List.filter_congr fun row _ => by simp [eq_comm]

/-- The ends of an edge are the positions of the ids of its key. -/
theorem edge_merged {edge : Edge α} (member : edge ∈ (merged rows).edges) :
    ∃ key ∈ edgeKeys rows, edgeOf (nodeIds rows) rows key = edge ∧ key.source ∈ nodeIds rows ∧
      key.target ∈ nodeIds rows ∧ edge.source = (nodeIds rows).idxOf key.source ∧
        edge.target = (nodeIds rows).idxOf key.target := by
  obtain ⟨key, known, rfl⟩ := List.mem_map.mp member
  obtain ⟨source, target⟩ := mem_nodeIds_of_mem_edgeKeys known
  obtain ⟨atSource, atTarget, -⟩ := stands_edgeOf (nodeIds rows) rows key
  exact ⟨key, known, rfl, source, target, atSource, atTarget⟩

theorem map_key?_merged :
    (merged rows).edges.map (merged rows).key? = distinct (rows.map fun row => some row.key) := by
  have renamed := distinct_map (Option.some_injective _) (rows.map Transfer.key)
  rw [List.map_map] at renamed
  refine Eq.trans ?_ renamed.symm
  show ((edgeKeys rows).map (edgeOf (nodeIds rows) rows)).map _ = (edgeKeys rows).map some
  rw [List.map_map]
  exact List.map_congr_left fun key known => key?_merged known

/-- Edges of different keys have different ends or styles. -/
theorem nodup_ends_merged :
    ((merged rows).edges.map fun edge => (edge.source, edge.target, edge.style)).Nodup := by
  rw [merged, table, List.map_map]
  refine (nodup_edgeKeys rows).map_on fun key known other known' same => ?_
  obtain ⟨source, target⟩ := mem_nodeIds_of_mem_edgeKeys known
  obtain ⟨atSource, atTarget, styled⟩ := stands_edgeOf (nodeIds rows) rows key
  obtain ⟨atSource', atTarget', styled'⟩ := stands_edgeOf (nodeIds rows) rows other
  simp only [Function.comp_apply, atSource, atTarget, styled, atSource', atTarget', styled',
    Prod.mk.injEq, List.idxOf_inj source, List.idxOf_inj target] at same
  exact Key.ext same.1 same.2.1 same.2.2

/-- An edge adds up the rows of its key. -/
theorem carried_merged {edge : Edge α} (member : edge ∈ (merged rows).edges) :
    edge.value = Quantity.total
        ((rows.filter fun row => (merged rows).key? edge = some row.key).map (·.weight)) ∧
      edge.amount = Quantity.totalOfPresent
        ((rows.filter fun row => (merged rows).key? edge = some row.key).map (·.amount)) ∧
      edge.count = Quantity.totalOfPresent
        ((rows.filter fun row => (merged rows).key? edge = some row.key).map (·.count)) := by
  obtain ⟨key, known, rfl, -⟩ := edge_merged member
  rw [filter_key?_merged known]
  exact foldl_absorb_fresh _ _ _ _

/-- A node adds up the rows at its id. -/
theorem flows_merged {node : Node α} (member : node ∈ (merged rows).nodes) :
    node.outValue = Quantity.total ((rows.filter (·.source.id = node.id)).map (·.weight)) ∧
      node.inValue = Quantity.total ((rows.filter (·.target.id = node.id)).map (·.weight)) ∧
      node.value = Quantity.total ((rows.filter fun row =>
        row.source.id = node.id ∨ row.target.id = node.id).map (·.weight)) := by
  obtain ⟨id, -, rfl⟩ := List.mem_map.mp member
  rw [id_nodeOf]
  exact ⟨rfl, rfl, rfl⟩

/-- A link counts at the node where it has an end. -/
theorem links_merged {position : Nat} {node : Node α}
    (found : (merged rows).nodes[position]? = some node) :
    node.links = (merged rows).edges.countP fun edge =>
      edge.source = position ∨ edge.target = position := by
  obtain ⟨id, here, rfl⟩ := nodeOf_of_getElem? found
  rw [merged, table, List.countP_map]
  refine List.countP_congr fun key known => ?_
  obtain ⟨source, target⟩ := mem_nodeIds_of_mem_edgeKeys known
  obtain ⟨atSource, atTarget, -⟩ := stands_edgeOf (nodeIds rows) rows key
  simp only [Function.comp_apply, decide_eq_true_eq, atSource, atTarget,
    idxOf_eq_iff (nodup_nodeIds rows) here source, idxOf_eq_iff (nodup_nodeIds rows) here target]

/-- **The graph of some rows sums them up.** -/
theorem summarises_merged (rows : List (Transfer α)) : (merged rows).Summarises rows where
  nodes := by
    have ids := firstSeen_distinct ((endpoints rows).map (·.id))
    rw [endpoints, List.map_flatMap] at ids
    rw [ids_merged, nodeIds, endpoints, List.map_flatMap]
    exact ids
  ids := by
    rw [ids_merged]
    exact nodup_nodeIds rows
  ends := by
    intro edge member
    obtain ⟨key, -, -, source, target, atSource, atTarget⟩ := edge_merged member
    rw [atSource, atTarget, merged, table, List.length_map]
    exact ⟨List.idxOf_lt_length_of_mem source, List.idxOf_lt_length_of_mem target⟩
  edges := by
    rw [map_key?_merged]
    exact firstSeen_distinct _
  keys := nodup_ends_merged
  value _ member := (carried_merged member).1
  amount _ member := (carried_merged member).2.1
  count _ member := (carried_merged member).2.2
  outValue _ member := (flows_merged member).1
  inValue _ member := (flows_merged member).2.1
  touching _ member := (flows_merged member).2.2
  links _ _ found := links_merged found

end Merged

/-! ## Exact sums -/

/-- The edges that are picked by the end of their keys carry the rows of these keys. -/
theorem sum_value_merged {rows : List (Transfer ℚ)} (picked : Edge ℚ → Bool)
    (chosen : Key → Bool)
    (same : ∀ key ∈ edgeKeys rows, picked (edgeOf (nodeIds rows) rows key) = chosen key) :
    (((merged rows).edges.filter picked).map (·.value)).sum =
      ((rows.filter fun row => chosen row.key).map (·.weight)).sum := by
  have carried (key : Key) :
      (edgeOf (nodeIds rows) rows key).value =
        ((rows.filter fun row => row.key = key).map (·.weight)).sum := by
    rw [← Quantity.total_rat]
    exact (foldl_absorb_fresh _ _ _ _).1
  have covered : ∀ row ∈ rows, row.key ∈ edgeKeys rows :=
    fun row present => mem_edgeKeys.mpr ⟨row, present, rfl⟩
  rw [← sum_map_sum_filter Transfer.key (·.weight) chosen (nodup_edgeKeys rows) rows covered,
    merged, table, List.filter_map, List.map_map]
  have kept : (edgeKeys rows).filter (picked ∘ edgeOf (nodeIds rows) rows) =
      (edgeKeys rows).filter chosen :=
    List.filter_congr same
  rw [kept]
  exact congrArg List.sum (List.map_congr_left fun key _ => carried key)

theorem balanced_merged (rows : List (Transfer ℚ)) : (merged rows).Balanced := by
  constructor
  case outValue =>
    intro position node found
    obtain ⟨id, here, rfl⟩ := nodeOf_of_getElem? found
    rw [sum_value_merged (·.source = position) (·.source = id)]
    · exact Quantity.total_rat _
    · intro key known
      rw [(stands_edgeOf (nodeIds rows) rows key).1]
      exact decide_eq_decide.mpr
        (idxOf_eq_iff (nodup_nodeIds rows) here (mem_nodeIds_of_mem_edgeKeys known).1)
  case inValue =>
    intro position node found
    obtain ⟨id, here, rfl⟩ := nodeOf_of_getElem? found
    rw [sum_value_merged (·.target = position) (·.target = id)]
    · exact Quantity.total_rat _
    · intro key known
      rw [(stands_edgeOf (nodeIds rows) rows key).2.1]
      exact decide_eq_decide.mpr
        (idxOf_eq_iff (nodup_nodeIds rows) here (mem_nodeIds_of_mem_edgeKeys known).2)

/-! ## The graph of some records -/

theorem ofRows_eq_merged {records : List Record} {config : Config} {fields : Fields}
    (resolved : Fields.resolve records config = some fields) :
    (ofRows records config : Graph α) = merged (records.filterMap (transfer? fields)) := by
  simp only [ofRows, resolved]
  exact ofTransfers_eq_merged _

/-- **The graph of some records sums up the rows that name both ends, and without rounding the
edges at a node carry what leaves and what enters it.** -/
theorem ofRows_summarises {records : List Record} {config : Config} {fields : Fields}
    (resolved : Fields.resolve records config = some fields) :
    (∃ transfers : List (Transfer α),
      List.Forall₂ fields.Reads (records.filter fields.accepts) transfers ∧
        (ofRows records config).Summarises transfers) ∧
      (ofRows records config).Balanced := by
  rw [ofRows_eq_merged resolved, ofRows_eq_merged resolved]
  exact ⟨⟨_, fields.reads_filterMap records, summarises_merged _⟩, balanced_merged _⟩

/-- Two rows on one edge, an edge back without a weight, a loop, and a row without a target. -/
def loopRecords : List Record :=
  [[("source", .string "left"), ("target", .string "right"), ("weight", 2), ("paid", 5)],
    [("source", .string "right"), ("target", .string "left"), ("weight", .string "much")],
    [("source", .string "left"), ("target", .string "left"), ("weight", .string "3")],
    [("source", .string "left"), ("target", .string "right"), ("weight", 4), ("paid", "little")],
    [("source", .string "left"), ("weight", 8)]]

/-- The field of the amounts. -/
def loopConfig : Config :=
  { network := { amountField := some "paid" } }

/-- The row without a target is left out, and the loop counts once at its node. -/
theorem ofRows_summarises_of_loop :
    ∃ fields, Fields.resolve loopRecords loopConfig = some fields ∧
      (loopRecords.filter fields.accepts).length = 4 ∧
        (∃ transfers : List (Transfer Float),
          List.Forall₂ fields.Reads (loopRecords.filter fields.accepts) transfers ∧
            (ofRows loopRecords loopConfig).Summarises transfers) ∧
          (ofRows loopRecords loopConfig).Balanced ∧
      (ofRows loopRecords loopConfig : Graph Float).edges.map
        (fun edge => (edge.source, edge.target, edge.value, edge.amount)) =
          [(0, 1, 6, some 5), (1, 0, 0, none), (0, 0, 3, none)] ∧
      (ofRows loopRecords loopConfig : Graph Float).nodes.map
        (fun node => (node.id, node.outValue, node.inValue, node.value, node.links)) =
          [("left", 9, 3, 9, 3), ("right", 0, 6, 6, 2)] := by
  obtain ⟨summed, balanced⟩ := @ofRows_summarises Float _ loopRecords loopConfig _ rfl
  exact ⟨_, rfl, by decide, summed, balanced, by decide +kernel, by decide +kernel⟩

end Graph

end ChartCompiler.Network
