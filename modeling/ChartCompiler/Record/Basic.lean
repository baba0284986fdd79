import ChartCompiler.Json.Value
import ChartCompiler.Number.Numeral
import ChartCompiler.Number.Reading
import ChartCompiler.Text.Blank

/-!
# Records and their cells

A chart is made from records: objects whose members are the cells of a row.  Cells are loosely
typed, so each use reads them with its own coercion.  `Cell.number` accepts numbers and numeric
texts, `Cell.label` accepts whatever can be shown, and both answer nothing rather than fail.
-/

set_option autoImplicit false

namespace ChartCompiler

/-- A record: its cells by field name, in ascending order of the names. -/
abbrev Record := Members

/-- Why a value does not hold records. -/
inductive RecordsError where
  /-- The value is not an array. -/
  | notAnArray
  /-- The array has no items. -/
  | noRows
  /-- The first item is not an object. -/
  | notARecord
  deriving DecidableEq, Repr

namespace RecordsError

/-- The message of an error. -/
def message : RecordsError → String
  | notAnArray => "rows must be an array"
  | noRows => "rows are empty"
  | notARecord => "row 0 is not a record"

end RecordsError

/-- The records among some values. -/
def recordsAmong (items : List Json) : List Record :=
  items.filterMap Json.members?

/-- The records of a value: it must be an array whose first item is a record.  Later items that are
no records are passed over. -/
def records : Json → Except RecordsError (List Record)
  | .array [] => .error .noRows
  | .array (first :: rest) =>
    match first.members? with
    | some _ => .ok (recordsAmong (first :: rest))
    | none => .error .notARecord
  | _ => .error .notAnArray

namespace Cell

/-- Reads a text as a finite number.  Commas are skipped, and a blank text is no number. -/
def textNumber (text : String) : Option Float :=
  let trimmed := Text.trimBlanks text.toList
  match readFloat (trimmed.filter (· ≠ ',')) with
  | some value => if value.isFinite then some value else none
  | none => none

/-- A cell as a finite number. -/
def number : Json → Option Float
  | .integer value => some (Float.ofInt value)
  | .float value => if value.isFinite then some value else none
  | .string text => textNumber text
  | _ => none

/-- A cell as a text to show: a text without the blanks around it, a number or a truth value as
it is written. -/
def label : Json → Option String
  | .string text =>
    let trimmed := Text.trim text
    if trimmed = "" then none else some trimmed
  | .integer value => some (integerText value)
  | .float value => some (floatText .data value)
  | .bool true => some "true"
  | .bool false => some "false"
  | _ => none

/-- Whether a cell is missing or a text of blanks only. -/
def isBlank : Json → Bool
  | .null => true
  | .string text => (Text.trimBlanks text.toList).isEmpty
  | _ => false

end Cell

namespace Record

/-- The cell of a field. -/
def cell? (record : Record) (field : String) : Option Json :=
  Members.find? field record

/-- The label in a field. -/
def label? (record : Record) (field : String) : Option String :=
  (record.cell? field).bind Cell.label

/-- The number in a field. -/
def number? (record : Record) (field : String) : Option Float :=
  (record.cell? field).bind Cell.number

end Record

end ChartCompiler
