import ChartCompiler.Number.Quantity

/-!
# Aggregating the values of a cell

All rows that fall into one cell of a table are collapsed into a single value.  A tally takes the
values in row order and keeps what each aggregation needs; which one is asked for is decided at the
end.  Rows whose value does not read as a number are counted and otherwise ignored.

Rows and values are counted with 32 bits.  A row that a counter has no room for stops the program
(`Tally.push?`); until then the counters are natural numbers (`Tally.push`).
-/

set_option autoImplicit false

namespace ChartCompiler

/-- How the values of a cell become one. -/
inductive Aggregation where
  /-- The sum of the values. -/
  | sum
  /-- The mean of the values. -/
  | mean
  /-- The number of rows. -/
  | count
  /-- The smallest value. -/
  | min
  /-- The largest value. -/
  | max
  /-- The last value. -/
  | last
  deriving DecidableEq, Repr

namespace Aggregation

/-- The aggregations in order. -/
def all : List Aggregation := [sum, mean, count, min, max, last]

/-- The key of an aggregation in a configuration. -/
def key : Aggregation → String
  | sum => "sum"
  | mean => "mean"
  | count => "count"
  | min => "min"
  | max => "max"
  | last => "last"

/-- The aggregation with a key. -/
def ofKey? (text : String) : Option Aggregation :=
  all.find? fun aggregation => aggregation.key = text

end Aggregation

variable {α : Type} [Quantity α]

/-- The values of a cell that read as numbers, folded. -/
structure Totals (α : Type) where
  /-- How many values there are. -/
  count : Nat
  /-- Their sum from left to right. -/
  sum : α
  /-- The smallest. -/
  min : α
  /-- The largest. -/
  max : α
  /-- The latest. -/
  last : α

/-- The rows of a cell, folded. -/
structure Tally (α : Type) where
  /-- How many rows there are. -/
  rows : Nat
  /-- Their values, unless none of them reads as a number. -/
  totals : Option (Totals α)

namespace Tally

/-- The tally of no rows. -/
def empty : Tally α :=
  { rows := 0, totals := none }

/-- Adds one more value. -/
def addValue (value : α) : Option (Totals α) → Totals α
  | none => { count := 1, sum := Quantity.zero + value, min := value, max := value, last := value }
  | some totals =>
    { count := totals.count + 1
      sum := totals.sum + value
      min := Quantity.least totals.min value
      max := Quantity.greatest totals.max value
      last := value }

/-- Adds one more row, with its value if it reads as a number. -/
def push (tally : Tally α) (value : Option α) : Tally α :=
  { rows := tally.rows + 1
    totals :=
      match value with
      | none => tally.totals
      | some value => some (addValue value tally.totals) }

/-- The number of rows that is one too many for a counter of 32 bits. -/
def limit : Nat := 4294967296

/-- Whether both counters of a tally are below the limit. -/
def isCounted (tally : Tally α) : Bool :=
  decide (tally.rows < limit) && tally.totals.all fun totals => decide (totals.count < limit)

/-- Adds one more row, or stops where a counter is full. -/
def push? (tally : Tally α) (value : Option α) : Option (Tally α) :=
  let pushed := tally.push value
  if pushed.isCounted then some pushed else none

/-- The value of the cell.  Without a value the cell is a gap, except that rows can be counted. -/
def finish (aggregation : Aggregation) (tally : Tally α) : Option α :=
  match aggregation with
  | .count => if tally.rows = 0 then none else some (Quantity.ofNat tally.rows)
  | .sum => tally.totals.map (·.sum)
  | .mean => tally.totals.map fun totals => totals.sum / Quantity.ofNat totals.count
  | .min => tally.totals.map (·.min)
  | .max => tally.totals.map (·.max)
  | .last => tally.totals.map (·.last)

end Tally

end ChartCompiler
