import ChartCompiler.Text.Blank

/-!
# Kinds of charts

Every kind of chart has a key.  Keys are read without regard to blanks around them and to the case
of letters, and a network may also be called a graph.
-/

set_option autoImplicit false

namespace ChartCompiler

/-- A kind of chart. -/
inductive ChartKind where
  /-- Upright or lying bars. -/
  | bar
  /-- Lines. -/
  | line
  /-- Filled lines. -/
  | area
  /-- A pie or a ring. -/
  | pie
  /-- Polygons around a middle. -/
  | radar
  /-- Boxes of five numbers. -/
  | boxplot
  /-- Colored cells. -/
  | heatmap
  /-- Flows without cycles. -/
  | sankey
  /-- A hierarchy in rings. -/
  | sunburst
  /-- Words by size. -/
  | wordCloud
  /-- Nested bands of quantiles. -/
  | quantileBands
  /-- Nodes and edges. -/
  | network
  deriving DecidableEq, Repr

namespace ChartKind

/-- All kinds in order. -/
def all : List ChartKind :=
  [ bar, line, area, pie, radar, boxplot, heatmap, sankey, sunburst, wordCloud, quantileBands,
    network ]

/-- The key of a kind. -/
def key : ChartKind → String
  | bar => "bar"
  | line => "line"
  | area => "area"
  | pie => "pie"
  | radar => "radar"
  | boxplot => "boxplot"
  | heatmap => "heatmap"
  | sankey => "sankey"
  | sunburst => "sunburst"
  | wordCloud => "wordcloud"
  | quantileBands => "quantileBands"
  | network => "network"

/-- The kind that a text names. -/
def ofKey? (text : String) : Option ChartKind :=
  let trimmed := Text.trim text
  if Text.sameName trimmed "graph" then some network
  else all.find? fun kind => Text.sameName kind.key trimmed

/-- What is reported for a text that names no kind. -/
def unknownMessage (text : String) : String :=
  "unknown chart type `" ++ text ++ "`"

end ChartKind

end ChartCompiler
