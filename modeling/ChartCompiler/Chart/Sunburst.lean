import ChartCompiler.Axis.Frame
import ChartCompiler.Text.Split

/-!
# Sunbursts

Each row names a node by its path and carries a value.  Missing ancestors are made on the way down,
and the value is added to every node of the path, so the value of a node is that of the rows that
name it together with those of its children.

The nodes stand in one list and refer to their children by position; a node is looked up by its
path, joined with the separator.
-/

set_option autoImplicit false

namespace ChartCompiler.Sunburst

variable {α : Type} [Quantity α]

/-- A node. -/
structure Node (α : Type) where
  /-- The last part of the path. -/
  name : String
  /-- The whole path. -/
  path : String
  /-- The value. -/
  value : α
  /-- The positions of the children, in the order in which they first come up. -/
  children : List Nat

namespace Node

/-- A node without value. -/
def fresh (name path : String) : Node α :=
  { name, path, value := Quantity.zero, children := [] }

/-- Gives a node another child. -/
def adopt (child : Nat) (node : Node α) : Node α :=
  { node with children := node.children ++ [child] }

/-- Adds a value to a node. -/
def grow (value : α) (node : Node α) : Node α :=
  { node with value := node.value + value }

end Node

/-- A forest of nodes. -/
structure Data (α : Type) where
  /-- All nodes. -/
  nodes : List (Node α)
  /-- The positions of the nodes without parent, in the order in which they first come up. -/
  roots : List Nat

namespace Data

/-- The empty forest. -/
def empty : Data α := { nodes := [], roots := [] }

/-- The position of the node with a path. -/
def position? (data : Data α) (path : String) : Option Nat :=
  data.nodes.findIdx? (·.path = path)

/-- Adds a node without value at the end, as the last child of a parent or as the last root. -/
def append (data : Data α) (parent : Option Nat) (name path : String) : Data α :=
  let position := data.nodes.length
  match parent with
  | none => { nodes := data.nodes ++ [.fresh name path], roots := data.roots ++ [position] }
  | some parent =>
    { data with nodes := data.nodes.modify parent (Node.adopt position) ++ [.fresh name path] }

/-- Adds a value to the node at a position. -/
def addValue (data : Data α) (position : Nat) (value : α) : Data α :=
  { data with nodes := data.nodes.modify position (Node.grow value) }

/-- The path of a node below a path. -/
def pathBelow (separator above name : String) : String :=
  if above = "" then name else above ++ separator ++ name

/-- Adds a value to every node of a path, given by its parts below a parent. -/
def insertBelow (separator : String) (value : α) (parent : Option Nat) (above : String)
    (data : Data α) : List String → Data α
  | [] => data
  | name :: rest =>
    let path := pathBelow separator above name
    match data.position? path with
    | some position =>
      insertBelow separator value (some position) path (data.addValue position value) rest
    | none =>
      let grown := data.append parent name path
      let position := data.nodes.length
      insertBelow separator value (some position) path (grown.addValue position value) rest

/-- Adds a value to every node of a path. -/
def insert (separator : String) (data : Data α) (path : List String) (value : α) : Data α :=
  insertBelow separator value none "" data path

end Data

/-- The fields of path and value. -/
def fields? (rows : List Record) (config : Config) : Option (String × String) := do
  let path ← findField rows (config.sunburst.pathField.or config.xField)
    ["path", "category", "label", "name"]
  let value ← findField rows (config.valueField.or config.yField) valueNames
  return (path, value)

/-- What stands between the parts of a path. -/
def separator (config : Config) : String :=
  (config.sunburst.pathSeparator.filter (· ≠ "")).getD "/"

/-- The parts of a path, without the blanks around them; blank parts are left out. -/
def segments (separator path : String) : List String :=
  ((Text.split separator.toList path.toList).map Text.trimBlanks).filterMap fun part =>
    if part.isEmpty then none else some (String.ofList part)

/-- The path and the value that a row adds: nothing without a path or a positive value. -/
def leaf? (separator pathField valueField : String) (row : Record) : Option (List String × α) := do
  let path ← row.label? pathField
  let value ← row.number? valueField
  let amount : α := Quantity.ofFloat value
  let parts := segments separator path
  if amount ≤ Quantity.zero ∨ parts.isEmpty then none else some (parts, amount)

/-- The forest of some records. -/
def ofRows (rows : List Record) (config : Config) : Data α :=
  match fields? rows config with
  | none => .empty
  | some (pathField, valueField) =>
    let separator := separator config
    (rows.filterMap (leaf? separator pathField valueField)).foldl
      (fun data (path, value) => data.insert separator path value) .empty

/-! ## The option -/

/-- The option of a node around the options of its children. -/
def nodeItem (writer : TooltipWriter) (color : String) (above : Float) (isRoot : Bool)
    (node : Node Float) (children : List Json) : Json :=
  let share := if 0 < above then shareText (node.value / above * 100) else "-"
  let lines := [("Value", writer.formatter.tooltip node.value), ("Share", share)]
  let base : Json := .record
    [ ("name", node.name),
      ("value", .ofFloat node.value),
      ("tooltip", formatted (writer.item node.path (some color) lines)) ]
  let colored := base.setIf isRoot "itemStyle" (.record [("color", color)])
  colored.setIf (!children.isEmpty) "children" (.array children)

/-- The option of a node and of all nodes below it.  Depth is bounded by the number of nodes, which
a caller passes as fuel. -/
def item (data : Data Float) (writer : TooltipWriter) (color : String) :
    Nat → Float → Nat → Json
  | 0, _, _ => .null
  | fuel + 1, above, position =>
    match data.nodes[position]? with
    | none => .null
    | some node =>
      nodeItem writer color above (data.roots.contains position) node
        (node.children.map (item data writer color fuel node.value))

/-- The sum of the values of the roots. -/
def total (data : Data α) : α :=
  Quantity.sum (data.roots.filterMap fun root => (data.nodes[root]?).map (·.value))

/-- The option of a sunburst around its trees. -/
def around (trees : List Json) (colors : List String) (config : Config) (dark : Bool) : Json :=
  let theme := Theme.forMode dark
  .record
    [ ("backgroundColor", "transparent"),
      ("color", .strings colors),
      ("tooltip", itemTooltip dark),
      ("series", .array
        [ .record
          [ ("type", "sunburst"),
            ("radius", .array [0, if config.isExpanded then "92%" else "88%"]),
            ("center", .strings ["50%", "50%"]),
            ("sort", .null),
            ("emphasis", .record [("focus", "ancestor")]),
            ("itemStyle", .record
              [ ("borderWidth", 1), ("borderColor", theme.splitLine.css) ]),
            ("label", .record
              [ ("show", config.showLabels), ("rotate", "radial"),
                ("color", theme.text.css) ]),
            ("data", .array trees) ] ]) ]

/-- The option of a sunburst, if there is anything to show. -/
def option? (data : Data Float) (config : Config) (dark : Bool) : Option Json :=
  if data.roots.isEmpty then none
  else
    let writer := TooltipWriter.forMode (ValueFormatter.ofConfig config) dark
    let colors := config.seriesColors data.roots.length dark
    let trees := List.zipWith
      (fun root color => item data writer color data.nodes.length (total data) root)
      data.roots colors
    some (around trees colors config dark)

end ChartCompiler.Sunburst
