/-!
# Notices

While a chart is compiled, some decisions are worth a notice: a record that was passed over, a
configured value that was not usable, a chart without data.  Compilation itself is a pure function;
each part of it comes with a second function that gives the notices of that part, in the order in
which they arise.
-/

set_option autoImplicit false

namespace ChartCompiler

/-- How much attention a notice asks for. -/
inductive NoticeLevel where
  /-- Something was ignored that the author of the chart should know about. -/
  | warn
  /-- A chart came out empty. -/
  | debug
  /-- A detail of the data. -/
  | trace
  deriving DecidableEq, Repr

namespace NoticeLevel

/-- The name of a level. -/
def name : NoticeLevel → String
  | warn => "warn"
  | debug => "debug"
  | trace => "trace"

end NoticeLevel

/-- A notice. -/
structure Notice where
  /-- The level. -/
  level : NoticeLevel
  /-- The text. -/
  message : String
  deriving DecidableEq, Repr

namespace Notice

/-- A notice that warns. -/
def warn (message : String) : Notice := { level := .warn, message }

/-- A notice about an empty chart. -/
def debug (message : String) : Notice := { level := .debug, message }

/-- A notice about a detail. -/
def trace (message : String) : Notice := { level := .trace, message }

end Notice

end ChartCompiler
