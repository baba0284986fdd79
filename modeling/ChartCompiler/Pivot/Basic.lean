import ChartCompiler.Pivot.Tally
import ChartCompiler.Record.Field

/-!
# Pivot tables

A pivot groups rows by the label of a category cell and the label of a series cell.  Categories and
series are found while the rows are read, so the table grows in both directions: a new category
adds an empty cell to every row of cells, and a new series adds a row of empty cells.  The finished
table is dense: it has one row of cells for each series, with one cell for each category.

A cell counts its rows with 32 bits, so that grouping stops where more rows than that fall into one
cell (`Pivot.build?`).  As long as none does, the table is that of counting without a limit
(`Pivot.build`), and this is the table that charts are drawn from.
-/

set_option autoImplicit false

namespace ChartCompiler

/-- The fields a pivot reads. -/
structure PivotFields where
  /-- The field of the category. -/
  category : String
  /-- The field of the value. -/
  value : String
  /-- The field of the series; without one all rows form a series named after the value field. -/
  series : Option String
  deriving DecidableEq, Repr

/-- A row that takes part in a pivot. -/
structure PivotEntry (α : Type) where
  /-- The label of the category. -/
  category : String
  /-- The cell the label was read from. -/
  cell : Json
  /-- The label of the series. -/
  series : String
  /-- The value, if it reads as a number. -/
  value : Option α

/-- A dense table of categories and series. -/
structure Pivot (α : Type) where
  /-- The labels of the categories, in axis order. -/
  categories : List String
  /-- The cell that each category was first read from. -/
  categoryCells : List Json
  /-- The labels of the series, in the order they were first seen. -/
  series : List String
  /-- The cells: one list for each series, with one entry for each category. -/
  cells : List (List (Option α))

variable {α : Type} [Quantity α]

namespace PivotFields

/-- The label of the series of a row. -/
def seriesLabel? (fields : PivotFields) (row : Record) : Option String :=
  match fields.series with
  | some field => row.label? field
  | none => some fields.value

/-- What a row contributes: nothing without a category label and a series label. -/
def contribution? (fields : PivotFields) (row : Record) : Option (PivotEntry α) := do
  let cell ← row.cell? fields.category
  let category ← Cell.label cell
  let series ← fields.seriesLabel? row
  return { category, cell, series, value := (row.number? fields.value).map Quantity.ofFloat }

end PivotFields

/-- A pivot table while its rows are read. -/
structure PivotDraft (α : Type) where
  /-- The categories found so far, each with the cell it was first read from. -/
  categories : List (String × Json)
  /-- The series found so far. -/
  series : List String
  /-- The tallies: one list for each series, with one tally for each category. -/
  tallies : List (List (Tally α))

namespace PivotDraft

/-- The table before any row is read. -/
def empty : PivotDraft α :=
  { categories := [], series := [], tallies := [] }

/-- Makes sure that a category is present. -/
def withCategory (draft : PivotDraft α) (category : String) (cell : Json) : PivotDraft α :=
  if draft.categories.any (·.1 = category) then draft
  else
    { draft with
      categories := draft.categories ++ [(category, cell)]
      tallies := draft.tallies.map (· ++ [Tally.empty]) }

/-- Makes sure that a series is present. -/
def withSeries (draft : PivotDraft α) (series : String) : PivotDraft α :=
  if draft.series.contains series then draft
  else
    { draft with
      series := draft.series ++ [series]
      tallies := draft.tallies ++ [List.replicate draft.categories.length Tally.empty] }

/-- Adds a value to the cell at a series and a category. -/
def push (draft : PivotDraft α) (series category : Nat) (value : Option α) : PivotDraft α :=
  { draft with
    tallies := draft.tallies.modify series fun cells =>
      cells.modify category fun tally => tally.push value }

/-- Adds a value to the cell at a series and a category, or stops where a counter of the cell is
full. -/
def push? (draft : PivotDraft α) (series category : Nat) (value : Option α) :
    Option (PivotDraft α) := do
  let cells ← draft.tallies[series]?
  let tally ← cells[category]?
  let pushed ← tally.push? value
  return { draft with tallies := draft.tallies.set series (cells.set category pushed) }

/-- Reads one more row. -/
def add (draft : PivotDraft α) (entry : PivotEntry α) : PivotDraft α :=
  let grown := (draft.withCategory entry.category entry.cell).withSeries entry.series
  grown.push (grown.series.idxOf entry.series)
    ((grown.categories.map (·.1)).idxOf entry.category) entry.value

/-- Reads one more row, or stops where a counter of its cell is full. -/
def add? (draft : PivotDraft α) (entry : PivotEntry α) : Option (PivotDraft α) :=
  let grown := (draft.withCategory entry.category entry.cell).withSeries entry.series
  grown.push? (grown.series.idxOf entry.series)
    ((grown.categories.map (·.1)).idxOf entry.category) entry.value

/-- The finished table. -/
def finish (aggregation : Aggregation) (draft : PivotDraft α) : Pivot α :=
  { categories := draft.categories.map (·.1)
    categoryCells := draft.categories.map (·.2)
    series := draft.series
    cells := draft.tallies.map fun cells => cells.map fun tally => tally.finish aggregation }

end PivotDraft

namespace Pivot

/-- Groups rows by category and series, as long as no counter is full. -/
def build (rows : List Record) (fields : PivotFields) (aggregation : Aggregation) : Pivot α :=
  ((rows.filterMap fields.contribution?).foldl PivotDraft.add PivotDraft.empty).finish aggregation

/-- Groups rows by category and series, or stops where a counter is full. -/
def build? (rows : List Record) (fields : PivotFields) (aggregation : Aggregation) :
    Option (Pivot α) := do
  let draft ← (rows.filterMap fields.contribution?).foldlM PivotDraft.add? PivotDraft.empty
  return draft.finish aggregation

/-- Whether no category was found. -/
def isEmpty (pivot : Pivot α) : Bool :=
  pivot.categories.isEmpty

/-- The values of all present cells, series by series. -/
def values (pivot : Pivot α) : List α :=
  pivot.cells.flatten.filterMap id

/-- The present values of one category, in the order of the series. -/
def column (pivot : Pivot α) (category : Nat) : List α :=
  pivot.cells.filterMap fun cells => (cells[category]?).join

/-- The sum of the present values of each category. -/
def columnTotals (pivot : Pivot α) : List α :=
  (List.range pivot.categories.length).map fun category => Quantity.sum (pivot.column category)

/-- The largest present value. -/
def largestValue (pivot : Pivot α) : Option α :=
  match pivot.values with
  | [] => none
  | first :: rest => some (rest.foldl Quantity.greatest first)

/-- The number of rows that a pivot leaves out for want of a label. -/
def skippedRows (rows : List Record) (fields : PivotFields) : Nat :=
  (rows.filter fun row => (fields.contribution? (α := Float) row).isNone).length

end Pivot

end ChartCompiler
