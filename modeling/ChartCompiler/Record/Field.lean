import ChartCompiler.Record.Basic

/-!
# Finding the field that records carry

A chart asks for a field by an optional configured name and a list of conventional names.  Each
candidate is looked for among all records before the next candidate is tried, because records need
not share one shape.  A record carries a candidate when it has a cell of exactly that name, or
failing that one whose name differs only in the case of its letters; the record's own spelling is
the answer, so that it can be used to look cells up.
-/

set_option autoImplicit false

namespace ChartCompiler

/-- The names a field is looked for under. -/
structure Candidates where
  /-- The configured name. -/
  configured : Option String
  /-- The conventional names, best first. -/
  conventional : List String
  deriving DecidableEq, Repr

/-- The record's own spelling of a name. -/
def Record.spelling? (record : Record) (name : String) : Option String :=
  match record.cell? name with
  | some _ => some name
  | none => (Members.keys record).find? fun key => Text.sameName key name

namespace Candidates

/-- The candidates in order of priority; the empty name is none. -/
def names (candidates : Candidates) : List String :=
  (candidates.configured.toList ++ candidates.conventional).filter (· ≠ "")

/-- The field of one record. -/
def inRecord? (candidates : Candidates) (record : Record) : Option String :=
  candidates.names.findSome? record.spelling?

/-- The field of a list of records: the best candidate that any of them carries, as the first
record that carries it spells it. -/
def inRecords? (candidates : Candidates) (rows : List Record) : Option String :=
  candidates.names.findSome? fun name => rows.findSome? fun record => record.spelling? name

end Candidates

/-- The field of a list of records under a configured name or conventional names. -/
def findField (rows : List Record) (configured : Option String) (conventional : List String) :
    Option String :=
  (Candidates.mk configured conventional).inRecords? rows

/-! ## Conventional names -/

/-- Conventional names of the category field. -/
def categoryNames : List String :=
  ["date", "day", "week", "month", "time", "timestamp", "period", "category", "label", "name"]

/-- Conventional names of the value field. -/
def valueNames : List String :=
  ["value", "count", "total", "amount", "volume"]

/-- Conventional names of the field that a flow starts from. -/
def sourceNames : List String :=
  ["source", "from", "sender", "origin"]

/-- Conventional names of the field that a flow leads to. -/
def targetNames : List String :=
  ["target", "to", "receiver", "destination"]

end ChartCompiler
