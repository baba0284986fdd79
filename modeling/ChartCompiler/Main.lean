import ChartCompiler.Gallery.CommandLine

/-!
# The program

Prints the samples that the arguments ask for.
-/

set_option autoImplicit false

open ChartCompiler

/-- Runs the command line with the arguments of the process. -/
def main (arguments : List String) : IO UInt32 := do
  let outcome := CommandLine.run arguments
  (← IO.getStdout).putStr outcome.output
  (← IO.getStderr).putStr outcome.report
  return outcome.code.toUInt32
