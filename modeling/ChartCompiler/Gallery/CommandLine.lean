import ChartCompiler.Compile
import ChartCompiler.Gallery.Samples
import ChartCompiler.Json.Printer

/-!
# The command line

The arguments name kinds of charts, and the flag `--dark` among them asks for the dark theme.  The
sample of each kind is compiled and printed under a line with the key of the kind; without kinds
all samples are.  The first argument that names no kind is reported, and nothing is printed.
-/

set_option autoImplicit false

namespace ChartCompiler.CommandLine

/-- What a run asks for. -/
structure Request where
  /-- Whether the dark theme is asked for. -/
  dark : Bool
  /-- The kinds in the order in which they are named. -/
  kinds : List ChartKind
  deriving DecidableEq, Repr

/-- What a run does. -/
structure Outcome where
  /-- The exit code: zero, or one when an argument is not understood. -/
  code : Nat
  /-- What is printed. -/
  output : String
  /-- What is reported. -/
  report : String
  deriving DecidableEq, Repr

/-- The flag for the dark theme. -/
def darkFlag : String := "--dark"

/-- Reads arguments; the first one that names no kind is the error. -/
def Request.ofArguments : List String → Except String Request
  | [] => .ok { dark := false, kinds := [] }
  | argument :: rest =>
    if argument = darkFlag then
      (ofArguments rest).map fun request => { request with dark := true }
    else
      match ChartKind.ofKey? argument with
      | none => .error argument
      | some kind =>
        (ofArguments rest).map fun request => { request with kinds := kind :: request.kinds }

/-- The kinds whose samples are printed. -/
def Request.shown (request : Request) : List ChartKind :=
  if request.kinds.isEmpty then ChartKind.all else request.kinds

/-- The printed form of the sample of a kind. -/
def entry (dark : Bool) (kind : ChartKind) : String :=
  let chart := compileChart kind.key kind.sample.rows kind.sample.config dark
  "// " ++ kind.key ++ "\n" ++ Json.pretty chart.option ++ "\n\n"

/-- What a run with some arguments does. -/
def run (arguments : List String) : Outcome :=
  match Request.ofArguments arguments with
  | .error argument =>
    { code := 1, output := "", report := ChartKind.unknownMessage argument ++ "\n" }
  | .ok request =>
    { code := 0, output := String.join (request.shown.map (entry request.dark)), report := "" }

end ChartCompiler.CommandLine
