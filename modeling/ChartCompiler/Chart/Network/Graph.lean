import ChartCompiler.Config.Basic
import ChartCompiler.Record.Field
import ChartCompiler.Ledger
import ChartCompiler.Notice
import ChartCompiler.Number.Quantity

/-!
# Nodes and edges

Rows name the two ends of an edge.  Nodes are merged by id, edges by source, target and style, both
in the order in which they first come up.  The weight of a row is added to its edge and to the
nodes at both ends; a row that leads from a node to itself counts once for that node.
-/

set_option autoImplicit false

namespace ChartCompiler.Network

variable {α : Type} [Quantity α]

/-- A node. -/
structure Node (α : Type) where
  /-- What the node is known by. -/
  id : String
  /-- What the node is shown as. -/
  name : String
  /-- The category. -/
  category : Option String
  /-- The sum of the weights of all rows that touch the node. -/
  value : α
  /-- The sum of the weights of all rows that lead to the node. -/
  inValue : α
  /-- The sum of the weights of all rows that start from the node. -/
  outValue : α
  /-- The number of merged edges that touch the node. -/
  links : Nat

namespace Node

/-- A node that no row has been added to. -/
def fresh (id : String) : Node α :=
  { id
    name := id
    category := none
    value := Quantity.zero
    inValue := Quantity.zero
    outValue := Quantity.zero
    links := 0 }

/-- Whether a label is the id or the name of a node. -/
def isNamed (node : Node α) (label : String) : Bool :=
  node.id == label || node.name == label

/-- Gives a node a name and a category, unless it has them already.  A name that is the id is no
name yet. -/
def describe (node : Node α) (name category : Option String) : Node α :=
  { node with
    name := if node.name = node.id then name.getD node.name else node.name
    category := node.category.or category }

end Node

/-- A merged edge. -/
structure Edge (α : Type) where
  /-- The position of the source among the nodes. -/
  source : Nat
  /-- The position of the target among the nodes. -/
  target : Nat
  /-- The style. -/
  style : Option String
  /-- The sum of the weights. -/
  value : α
  /-- The sum of the amounts. -/
  amount : Option α
  /-- The sum of the numbers of transfers. -/
  count : Option α
  /-- The date that is the greatest as a text. -/
  date : Option String
  /-- The first token. -/
  token : Option String

/-- Nodes and edges. -/
structure Graph (α : Type) where
  /-- The nodes. -/
  nodes : List (Node α)
  /-- The edges. -/
  edges : List (Edge α)

/-! ## Fields -/

/-- The fields that a network reads. -/
structure Fields where
  /-- The field of the source. -/
  source : String
  /-- The field of the target. -/
  target : String
  /-- The field of the name of the source. -/
  sourceName : Option String
  /-- The field of the name of the target. -/
  targetName : Option String
  /-- The field of the category of the source. -/
  sourceGroup : Option String
  /-- The field of the category of the target. -/
  targetGroup : Option String
  /-- The field of the weight. -/
  weight : Option String
  /-- The field of the style. -/
  style : Option String
  /-- The field of the date. -/
  date : Option String
  /-- The field of the amount. -/
  amount : Option String
  /-- The field of the number of transfers. -/
  count : Option String
  /-- The field of the token. -/
  token : Option String
  deriving DecidableEq, Repr

namespace Fields

/-- The fields under a configuration. -/
def resolve (rows : List Record) (config : Config) : Option Fields := do
  let options := config.network
  let source ← findField rows options.sourceField sourceNames
  let target ← findField rows options.targetField targetNames
  return {
    source
    target
    sourceName := findField rows options.sourceNameField ["source_name", "sourceName", "from_name"]
    targetName := findField rows options.targetNameField ["target_name", "targetName", "to_name"]
    sourceGroup := findField rows options.sourceGroupField
      ["source_group", "sourceGroup", "source_category"]
    targetGroup := findField rows options.targetGroupField
      ["target_group", "targetGroup", "target_category"]
    weight :=
      (findField rows (options.weightField.or config.valueField)
        ["weight", "value", "count", "total", "amount", "volume"]).or
        (findField rows none valueNames)
    style := findField rows options.edgeStyleField []
    date := findField rows options.dateField []
    amount := findField rows options.amountField []
    count := findField rows options.countField []
    token := findField rows options.tokenField [] }

end Fields

/-! ## Rows -/

/-- The label in a field that may be missing. -/
def labelIn (row : Record) (field : Option String) : Option String :=
  field.bind row.label?

/-- The quantity in a field that may be missing. -/
def quantityIn (row : Record) (field : Option String) : Option α :=
  (field.bind row.number?).map Quantity.ofFloat

/-- One end of a row. -/
structure Endpoint where
  /-- The id of the node. -/
  id : String
  /-- The name of the node, if the row gives one. -/
  name : Option String
  /-- The category of the node, if the row gives one. -/
  category : Option String
  deriving DecidableEq, Repr

/-- A row that names both ends of an edge. -/
structure Transfer (α : Type) where
  /-- The start. -/
  source : Endpoint
  /-- The end. -/
  target : Endpoint
  /-- The weight. -/
  weight : α
  /-- The style. -/
  style : Option String
  /-- The amount. -/
  amount : Option α
  /-- The number of transfers. -/
  count : Option α
  /-- The date. -/
  date : Option String
  /-- The token. -/
  token : Option String

/-- What a row says: nothing without both ends.  A weight that does not read as a number counts as
zero. -/
def transfer? (fields : Fields) (row : Record) : Option (Transfer α) := do
  let source ← row.label? fields.source
  let target ← row.label? fields.target
  return {
    source :=
      { id := source
        name := labelIn row fields.sourceName
        category := labelIn row fields.sourceGroup }
    target :=
      { id := target
        name := labelIn row fields.targetName
        category := labelIn row fields.targetGroup }
    weight := (quantityIn row fields.weight).getD Quantity.zero
    style := labelIn row fields.style
    amount := quantityIn row fields.amount
    count := quantityIn row fields.count
    date := labelIn row fields.date
    token := labelIn row fields.token }

/-! ## Building -/

/-- Adds a quantity to a sum that may be missing still. -/
def addTo (total value : Option α) : Option α :=
  match value with
  | none => total
  | some value => some (total.getD Quantity.zero + value)

/-- The greater of a text and another one that may be missing. -/
def latest (kept given : Option String) : Option String :=
  match kept, given with
  | some kept, some given => if kept < given then some given else some kept
  | none, given => given
  | kept, none => kept

namespace Edge

/-- An edge that no row has been added to. -/
def fresh (source target : Nat) (style : Option String) : Edge α :=
  { source
    target
    style
    value := Quantity.zero
    amount := none
    count := none
    date := none
    token := none }

/-- Whether an edge has these ends and this style. -/
def hasKey (source target : Nat) (style : Option String) (edge : Edge α) : Bool :=
  decide (edge.source = source ∧ edge.target = target ∧ edge.style = style)

/-- Adds a row to an edge. -/
def absorb (edge : Edge α) (row : Transfer α) : Edge α :=
  { edge with
    value := edge.value + row.weight
    amount := addTo edge.amount row.amount
    count := addTo edge.count row.count
    date := latest edge.date row.date
    token := edge.token.or row.token }

end Edge

namespace Graph

/-- The graph without rows. -/
def empty : Graph α := { nodes := [], edges := [] }

/-- The position of the node with an id; without one it is the position of the next node. -/
def position (graph : Graph α) (id : String) : Nat :=
  graph.nodes.findIdx (·.id = id)

/-- Makes sure that the node of an end is present, and describes it. -/
def intern (graph : Graph α) (endpoint : Endpoint) : Graph α :=
  let position := graph.position endpoint.id
  let nodes :=
    if position < graph.nodes.length then graph.nodes else graph.nodes ++ [.fresh endpoint.id]
  { graph with
    nodes := nodes.modify position fun node => node.describe endpoint.name endpoint.category }

/-- Counts one more link at a node. -/
def countLink (graph : Graph α) (node : Nat) : Graph α :=
  { graph with nodes := graph.nodes.modify node fun node => { node with links := node.links + 1 } }

/-- Makes sure that an edge is present; a new edge is counted at both of its ends. -/
def connect (graph : Graph α) (source target : Nat) (style : Option String) : Graph α :=
  if graph.edges.any (Edge.hasKey source target style) then graph
  else
    let linked := graph.countLink source
    let linked := if source = target then linked else linked.countLink target
    { linked with edges := linked.edges ++ [.fresh source target style] }

/-- Adds the weight of a row to the node it starts from. -/
def send (graph : Graph α) (node : Nat) (weight : α) : Graph α :=
  { graph with
    nodes := graph.nodes.modify node fun node =>
      { node with outValue := node.outValue + weight, value := node.value + weight } }

/-- Adds the weight of a row to the node it leads to, where the weight may have been counted for
the node already. -/
def receive (graph : Graph α) (node : Nat) (weight : α) (counted : Bool) : Graph α :=
  { graph with
    nodes := graph.nodes.modify node fun node =>
      { node with
        inValue := node.inValue + weight
        value := if counted then node.value else node.value + weight } }

/-- Adds a row to the edge between two nodes. -/
def absorb (graph : Graph α) (source target : Nat) (row : Transfer α) : Graph α :=
  { graph with
    edges := graph.edges.map fun edge =>
      if edge.hasKey source target row.style then edge.absorb row else edge }

/-- Adds a row. -/
def add (graph : Graph α) (row : Transfer α) : Graph α :=
  let interned := (graph.intern row.source).intern row.target
  let source := interned.position row.source.id
  let target := interned.position row.target.id
  let merged := (interned.connect source target row.style).absorb source target row
  (merged.send source row.weight).receive target row.weight (decide (source = target))

/-- The graph of some rows. -/
def ofTransfers (rows : List (Transfer α)) : Graph α :=
  rows.foldl add empty

/-- The graph of some records. -/
def ofRows (rows : List Record) (config : Config) : Graph α :=
  match Fields.resolve rows config with
  | none => empty
  | some fields => ofTransfers (rows.filterMap (transfer? fields))

/-- The notices of `ofRows`. -/
def notices (rows : List Record) (config : Config) : List Notice :=
  match Fields.resolve rows config with
  | none => [.debug "network: source/target fields not found"]
  | some fields =>
    let graph : Graph Float := ofRows rows config
    let skipped := rows.filter fun row => (transfer? (α := Float) fields row).isNone
    List.replicate skipped.length (.trace "network: skipping row without source/target") ++
      [.trace
        ("network: " ++ naturalText graph.nodes.length ++ " nodes, " ++
          naturalText graph.edges.length ++ " edges from " ++ naturalText rows.length ++ " rows")]

/-! ## Views -/

/-- The largest value of a node; zero without nodes. -/
def largestValue (graph : Graph α) : α :=
  (graph.nodes.map (·.value)).foldl Quantity.greatest Quantity.zero

/-- The categories of the nodes in the order in which they first come up. -/
def categories (graph : Graph α) : List String :=
  distinct (graph.nodes.filterMap (·.category))

/-- The styles of the edges in ascending order, each once. -/
def styles (graph : Graph α) : List String :=
  (distinct (graph.edges.filterMap (·.style))).mergeSort fun left right => decide (left ≤ right)

end Graph

end ChartCompiler.Network
