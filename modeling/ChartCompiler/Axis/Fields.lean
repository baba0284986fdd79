import ChartCompiler.Config.Basic
import ChartCompiler.Record.Field

/-!
# The fields of charts with axes

Charts with a category axis read a category, a value and perhaps a series.  A series field that is
the category field is no series field.  When no value field is configured or conventional, the
first column that holds a number and plays no other role is the value.
-/

set_option autoImplicit false

namespace ChartCompiler

/-- The fields that a chart with a category axis reads. -/
structure AxisFields where
  /-- The field of the category. -/
  category : String
  /-- The field of the value. -/
  value : String
  /-- The field of the series. -/
  series : Option String
  deriving DecidableEq, Repr

namespace AxisFields

/-- The first field of a record that holds a number and is neither of two other fields. -/
def numericField? (category : String) (series : Option String) (row : Record) : Option String :=
  let found := List.find? (fun (field, cell) =>
    decide (field ≠ category) && decide (some field ≠ series) && (Cell.number cell).isSome) row
  found.map (·.1)

/-- The fields of a list of records under a configuration. -/
def resolve (rows : List Record) (config : Config) : Option AxisFields := do
  let category ← findField rows config.xField categoryNames
  let series := (findField rows config.seriesField []).filter (· ≠ category)
  let value ←
    (findField rows config.yField valueNames).or
      (rows.findSome? (numericField? category series))
  return { category, value, series }

end AxisFields

end ChartCompiler
