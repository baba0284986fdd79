import ChartCompiler.Guide.Theme
import ChartCompiler.Json.Value
import ChartCompiler.Ledger

/-!
# Compiled charts

A compiled chart is an option, the JSON object that a renderer draws, and for networks with styled
edges a binding besides.  One option stands for "nothing to show".

The legend of the edge styles can only switch whole series on and off, so it is backed by empty
series; the binding tells which edges the network shows for a state of that legend.
-/

set_option autoImplicit false

namespace ChartCompiler

/-! ## Charts without data -/

/-- The text shown in place of a chart without data. -/
def noDataText : String := "No data available"

/-- The option of a chart without data: a centered text, hidden axes and no series. -/
def noDataOption (dark : Bool) : Json :=
  let theme := Theme.forMode dark
  .record
    [ ("backgroundColor", theme.background.css),
      ("title", .record
        [ ("text", noDataText),
          ("left", "center"),
          ("top", "middle"),
          ("textStyle", .record
            [ ("color", theme.mutedText.css),
              ("fontSize", 14),
              ("fontWeight", "normal") ]) ]),
      ("xAxis", .record [("show", false)]),
      ("yAxis", .record [("show", false)]),
      ("series", .array []) ]

/-! ## Edges by style -/

/-- An edge of a network, with the style it is listed under. -/
structure StyledEdge where
  /-- The style. -/
  style : Option String
  /-- The option of the edge. -/
  edge : Json

/-- The edges of a network by style. -/
structure EdgeBinding where
  /-- The position of the series that shows the edges. -/
  seriesIndex : Nat
  /-- All edges. -/
  edges : List StyledEdge

namespace EdgeBinding

/-- Whether an edge is shown for a selection of legend entries.  An edge without style is shown,
and so is one whose style the selection does not switch off. -/
def isShown (selection : Members) (entry : StyledEdge) : Bool :=
  ((entry.style.bind fun style => Members.find? style selection).bind Json.bool?).getD true

/-- The edges shown for a selection of legend entries. -/
def edgesFor (binding : EdgeBinding) (selection : Members) : List Json :=
  (binding.edges.filter (isShown selection)).map (·.edge)

/-- The styles in the order in which they first come up. -/
def styles (binding : EdgeBinding) : List String :=
  distinct (binding.edges.filterMap (·.style))

end EdgeBinding

/-! ## Compiled charts -/

/-- A compiled chart. -/
structure CompiledChart where
  /-- The option. -/
  option : Json
  /-- The edges by style, for a network whose edges have styles. -/
  edgeBinding : Option EdgeBinding

namespace CompiledChart

/-- A chart without a binding. -/
def ofOption (option : Json) : CompiledChart :=
  { option, edgeBinding := none }

/-- A chart without data. -/
def empty (dark : Bool) : CompiledChart :=
  ofOption (noDataOption dark)

/-- Whether a chart is the one without data, in either theme. -/
def isEmpty (chart : CompiledChart) : Bool :=
  Json.same chart.option (noDataOption false) || Json.same chart.option (noDataOption true)

end CompiledChart

end ChartCompiler
