import ChartCompiler.Pivot.Basic
import ChartCompiler.Time.Cadence

/-!
# Chronological order

Categories that read as instants are put in order of time; the others follow in the order they
had.  The order is computed once as a list of positions and then applied to the labels, to the
cells they were read from and to every row of the table, so that all of them stay aligned.
-/

set_option autoImplicit false

namespace ChartCompiler

/-- The place of a category in time, in milliseconds. -/
def moment? (cell : Json) : Option Int :=
  (Instant.ofCell? cell).map Instant.milliseconds

/-- Whether a moment comes no later than another one; a missing moment comes last. -/
def momentLE : Option Int → Option Int → Bool
  | some left, some right => decide (left ≤ right)
  | some _, none => true
  | none, some _ => false
  | none, none => true

/-- The positions of some cells in chronological order.  Cells of the same moment keep their
order. -/
def chronologicalOrder (cells : List Json) : List Nat :=
  let moments := cells.map moment?
  (List.range cells.length).mergeSort fun left right =>
    momentLE (moments[left]?).join (moments[right]?).join

/-- The items at some positions. -/
def pick {β : Type} (order : List Nat) (items : List β) : List β :=
  order.filterMap fun position => items[position]?

namespace Pivot

/-- Applies an order to the categories and to every row of cells. -/
def reorder {α : Type} (order : List Nat) (pivot : Pivot α) : Pivot α :=
  { categories := pick order pivot.categories
    categoryCells := pick order pivot.categoryCells
    series := pivot.series
    cells := pivot.cells.map (pick order) }

/-- Puts the categories in chronological order. -/
def chronological {α : Type} (pivot : Pivot α) : Pivot α :=
  pivot.reorder (chronologicalOrder pivot.categoryCells)

end Pivot

end ChartCompiler
