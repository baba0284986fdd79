import ChartCompiler.Axis.Frame
import ChartCompiler.Chart.Sankey.Acyclic
import ChartCompiler.Ledger

/-!
# Flows

Rows name a source and a target and carry a weight.  The weights of each pair are added up, pairs
without a positive sum are left out, and so are the links that would close a cycle.  The nodes that
are left without a link disappear.
-/

set_option autoImplicit false

namespace ChartCompiler.Sankey

variable {α : Type} [Quantity α]

/-- A flow between two nodes. -/
structure Link (α : Type) where
  /-- The position of the source among the nodes. -/
  source : Nat
  /-- The position of the target among the nodes. -/
  target : Nat
  /-- The weight. -/
  value : α

/-- Flows without a cycle. -/
structure Data (α : Type) where
  /-- The names of the nodes, in the order in which they first come up. -/
  nodes : List String
  /-- The links, in the order in which they first come up. -/
  links : List (Link α)
  /-- The number of links left out because they close a cycle. -/
  dropped : Nat

/-- A row that names a source and a target. -/
structure Flow (α : Type) where
  /-- The name of the source. -/
  source : String
  /-- The name of the target. -/
  target : String
  /-- The weight. -/
  weight : α

/-- The fields of a flow. -/
structure Fields where
  /-- The field of the source. -/
  source : String
  /-- The field of the target. -/
  target : String
  /-- The field of the weight. -/
  value : Option String
  deriving DecidableEq, Repr

/-- The fields under a configuration. -/
def fields? (rows : List Record) (config : Config) : Option Fields := do
  let source ← findField rows config.network.sourceField sourceNames
  let target ← findField rows config.network.targetField targetNames
  let value := findField rows (config.valueField.or config.network.weightField) valueNames
  return { source, target, value }

/-- The flow of a row: nothing without a source and a target.  A weight that does not read as a
number counts as zero. -/
def flow? (fields : Fields) (row : Record) : Option (Flow α) := do
  let source ← row.label? fields.source
  let target ← row.label? fields.target
  let weight := ((fields.value.bind row.number?).map Quantity.ofFloat).getD Quantity.zero
  return { source, target, weight }

/-- The names of all sources and targets in the order in which they first come up. -/
def endpoints (flows : List (Flow α)) : List String :=
  distinct (flows.flatMap fun flow => [flow.source, flow.target])

/-- The sum of the weights of each pair of source and target. -/
def pairs (flows : List (Flow α)) : List ((String × String) × α) :=
  flows.foldl
    (fun accounts flow =>
      book (flow.source, flow.target) Quantity.zero (· + flow.weight) accounts)
    []

/-- The flows of some records before cycles are opened: the names, and the links between positions
of names with a positive weight. -/
structure Draft (α : Type) where
  /-- The names. -/
  names : List String
  /-- The links. -/
  links : List (Link α)

namespace Draft

/-- The draft of some flows. -/
def ofFlows (flows : List (Flow α)) : Draft α :=
  let names := endpoints flows
  let positive := (pairs flows).filter fun (_, value) => decide (Quantity.zero < value)
  { names
    links := positive.map fun ((source, target), value) =>
      { source := names.idxOf source, target := names.idxOf target, value } }

/-- The links of a draft, each with the answer whether it closes a cycle. -/
def marked (draft : Draft α) : List (Link α × Bool) :=
  draft.links.zip
    (closingLinks draft.names.length (draft.links.map fun link => (link.source, link.target)))

/-- The flows without the links that close a cycle and without the nodes that have no link. -/
def acyclic (draft : Draft α) : Data α :=
  let kept := (draft.marked.filter fun (_, closes) => !closes).map (·.1)
  let used := (List.range draft.names.length).filter fun position =>
    kept.any fun link => link.source = position || link.target = position
  { nodes := pick used draft.names
    links := kept.map fun link =>
      { link with source := used.idxOf link.source, target := used.idxOf link.target }
    dropped := (draft.marked.filter (·.2)).length }

end Draft

/-- The draft of some records. -/
def draft? (rows : List Record) (config : Config) : Option (Draft α) :=
  (fields? rows config).map fun fields => Draft.ofFlows (rows.filterMap (flow? fields))

/-- The flows of some records. -/
def ofRows (rows : List Record) (config : Config) : Data α :=
  match draft? rows config with
  | none => { nodes := [], links := [], dropped := 0 }
  | some draft => draft.acyclic

/-- The notices of `ofRows`: one for each link that is left out. -/
def notices (rows : List Record) (config : Config) : List Notice :=
  match (draft? rows config : Option (Draft Float)) with
  | none => []
  | some draft =>
    (draft.marked.filter (·.2)).map fun (link, _) =>
      .warn ("sankey: dropping link " ++ draft.names.getD link.source "" ++ " -> " ++
        draft.names.getD link.target "" ++ " that would form a cycle")

/-! ## The option -/

/-- What flows into a node. -/
def inflow (data : Data α) (node : Nat) : α :=
  ((data.links.filter fun link => link.target = node).map (·.value)).foldl (· + ·) Quantity.zero

/-- What flows out of a node. -/
def outflow (data : Data α) (node : Nat) : α :=
  ((data.links.filter fun link => link.source = node).map (·.value)).foldl (· + ·) Quantity.zero

/-- The option of a node. -/
def nodeItem (writer : TooltipWriter) (name color : String) (inflow outflow : Float) : Json :=
  let lines :=
    [ ("Inflow", writer.formatter.tooltip inflow),
      ("Outflow", writer.formatter.tooltip outflow) ]
  .record
    [ ("name", name),
      ("itemStyle", .record [("color", color)]),
      ("tooltip", formatted (writer.item name (some color) lines)) ]

/-- The option of a link between two nodes. -/
def linkItem (writer : TooltipWriter) (source target : String) (value : Float) : Json :=
  .record
    [ ("source", source),
      ("target", target),
      ("value", .ofFloat value),
      ("tooltip", formatted (writer.item (source ++ " → " ++ target) none
        [("Value", writer.formatter.tooltip value)])) ]

/-- The option of flows around the options of nodes and links. -/
def around (nodes links : List Json) (config : Config) (dark : Bool) : Json :=
  let theme := Theme.forMode dark
  .record
    [ ("backgroundColor", "transparent"),
      ("tooltip", itemTooltip dark),
      ("series", .array
        [ .record
          [ ("type", "sankey"),
            ("left", 8),
            ("right", if config.isExpanded then 120 else 80),
            ("top", 16),
            ("bottom", 16),
            ("nodeGap", 10),
            ("nodeWidth", 14),
            ("draggable", false),
            ("emphasis", .record [("focus", "adjacency")]),
            ("label", .record [("color", theme.text.css), ("fontSize", 11)]),
            ("lineStyle", .record
              [ ("color", "gradient"), ("opacity", .ofFloat 0.35), ("curveness", .ofFloat 0.5) ]),
            ("data", .array nodes),
            ("links", .array links) ] ]) ]

/-- The option of flows, if there is anything to show. -/
def option? (data : Data Float) (config : Config) (dark : Bool) : Option Json :=
  if data.links.isEmpty then none
  else
    let writer := TooltipWriter.forMode (ValueFormatter.ofConfig config) dark
    let colors := config.seriesColors data.nodes.length dark
    let nodes := (data.nodes.zip colors).zipIdx.map fun ((name, color), position) =>
      nodeItem writer name color (inflow data position) (outflow data position)
    let links := data.links.map fun link =>
      linkItem writer (data.nodes.getD link.source "") (data.nodes.getD link.target "") link.value
    some (around nodes links config dark)

end ChartCompiler.Sankey
