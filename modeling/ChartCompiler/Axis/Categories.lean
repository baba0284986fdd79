import ChartCompiler.Format.Date
import ChartCompiler.Pivot.Chronology

/-!
# Categories without a pivot

Charts whose rows are complete summaries do not pivot; they only need to know which rows share a
category.  A register hands out the position of each category in the order of first sight, and at
the end fixes the order of display and the labels, by the same rules as for a pivot.
-/

set_option autoImplicit false

namespace ChartCompiler

/-- The categories seen so far, each with the cell it was first read from. -/
structure CategoryRegister where
  /-- The categories in the order of first sight. -/
  entries : List (String × Json)

namespace CategoryRegister

/-- The register before any category is seen. -/
def empty : CategoryRegister := { entries := [] }

/-- The position of the category that a cell names, which is added when it is new. -/
def insert (register : CategoryRegister) (cell : Json) : Option (Nat × CategoryRegister) :=
  match Cell.label cell with
  | none => none
  | some name =>
    match register.entries.findIdx? (·.1 = name) with
    | some position => some (position, register)
    | none => some (register.entries.length, { entries := register.entries ++ [(name, cell)] })

end CategoryRegister

/-- How categories are displayed. -/
structure CategoryDisplay where
  /-- The positions of the categories in display order. -/
  order : List Nat
  /-- The labels on the axis, in display order. -/
  labels : List String
  /-- The titles of the tooltips, in display order. -/
  titles : List String
  deriving DecidableEq, Repr

namespace CategoryRegister

/-- The order of display: chronological for a time series, otherwise that of first sight. -/
def displayOrder (register : CategoryRegister) (time : Sampling) : List Nat :=
  if time.isTimeSeries then chronologicalOrder (register.entries.map (·.2))
  else List.range register.entries.length

/-- Fixes the order of display and the labels. -/
def display (register : CategoryRegister) : CategoryDisplay :=
  let time := Sampling.ofCells (register.entries.map (·.2))
  let order := register.displayOrder time
  let labelled := fun (place : LabelPlace) =>
    (pick order register.entries).map fun (name, cell) => categoryLabel cell name time place
  { order, labels := labelled .axis, titles := labelled .tooltip }

end CategoryRegister

/-! ## Summaries by category -/

/-- The five numbers of a category, ascending. -/
structure FiveNumbers (α : Type) where
  /-- The lowest. -/
  lowest : α
  /-- The second. -/
  lower : α
  /-- The middle one. -/
  middle : α
  /-- The fourth. -/
  upper : α
  /-- The highest. -/
  highest : α
  deriving DecidableEq, Repr

namespace FiveNumbers

variable {α : Type}

/-- The numbers from the lowest to the highest. -/
def toList (numbers : FiveNumbers α) : List α :=
  [numbers.lowest, numbers.lower, numbers.middle, numbers.upper, numbers.highest]

/-- Puts five numbers in ascending order. -/
def ofUnsorted? [Quantity α] (numbers : List α) : Option (FiveNumbers α) :=
  match Quantity.ascending numbers with
  | [lowest, lower, middle, upper, highest] => some { lowest, lower, middle, upper, highest }
  | _ => none

/-- The five numbers of a row, if all of its five cells read as numbers. -/
def ofRow? [Quantity α] (fields : List String) (row : Record) : Option (FiveNumbers α) :=
  (fields.mapM fun field => (row.number? field).map Quantity.ofFloat).bind ofUnsorted?

end FiveNumbers

/-- The summaries of the categories seen so far; the summary of a category stands at its
position. -/
structure Summaries (α : Type) where
  /-- The categories. -/
  register : CategoryRegister
  /-- Their summaries, by position. -/
  summaries : List (FiveNumbers α)

namespace Summaries

variable {α : Type}

/-- No summaries. -/
def empty : Summaries α := { register := .empty, summaries := [] }

/-- Reads one more row.  A row that is not complete or has no category is passed over; a later row
of a category replaces its summary. -/
def add [Quantity α] (category : String) (fields : List String) (state : Summaries α)
    (row : Record) : Summaries α :=
  match FiveNumbers.ofRow? fields row with
  | none => state
  | some numbers =>
    match (row.cell? category).bind state.register.insert with
    | none => state
    | some (position, register) =>
      if position = state.summaries.length then
        { register, summaries := state.summaries ++ [numbers] }
      else
        { register, summaries := state.summaries.set position numbers }

/-- The summaries of some rows. -/
def ofRows [Quantity α] (category : String) (fields : List String) (rows : List Record) :
    Summaries α :=
  rows.foldl (add category fields) empty

/-- The number of rows that are not complete. -/
def incompleteRows (fields : List String) (rows : List Record) : Nat :=
  (rows.filter fun row => (FiveNumbers.ofRow? (α := Float) fields row).isNone).length

end Summaries

end ChartCompiler
