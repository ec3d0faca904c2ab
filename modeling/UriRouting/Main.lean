/-
The program. Import strings can name the modules of the table below and no others; an application with routes of its
own puts them into a table and calls `serve`.
-/
import UriRouting.CommandLine.Run

namespace UriRouting

def builtInModules : List CommandLine.Module := []

/-- run the command line on words: write what it writes, and give the exit code -/
def serve (modules : List CommandLine.Module) (words : List String) : IO UInt32 := do
  let (verbose, report) := CommandLine.run modules (words.map String.toList)
  (← IO.getStdout).putStr (String.ofList report.output)
  (← IO.getStderr).putStr (String.ofList (report.errors verbose))
  match report.ending with
  | .exit code => return UInt32.ofNat code
  | .noRouter failure => throw (IO.userError (String.ofList failure.message))
  | .escape e => throw (IO.userError (String.ofList e.message))
  | .incomplete gap => throw (IO.userError (String.ofList gap.message))

end UriRouting

def main (words : List String) : IO UInt32 := UriRouting.serve UriRouting.builtInModules words
