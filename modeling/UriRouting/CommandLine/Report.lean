/-
Reports: what a run of the command line writes, line by line and in order, and how it ends. Log records are part of a
report whether they are shown or not; showing them only adds lines to the error stream.
-/
import UriRouting.CommandLine.Target

namespace UriRouting.CommandLine

/-- something written during a run -/
inductive Emission where
  /-- text for the output -/
  | out (t : Text)
  /-- text for the error stream -/
  | err (t : Text)
  /-- a log record -/
  | log (event : Router.Event)
deriving Repr

/-- a word of a request that is missing where it is needed -/
inductive Gap where
  /-- the method, for the routes to be tried -/
  | method
  /-- the path, for a context path to be cut from -/
  | outerPath
  /-- the path, for a route to be tried on -/
  | path
deriving DecidableEq, Repr

def Gap.message : Gap → Text
  | method => "unhashable type: 'list'".toList
  | outerPath => "'list' object has no attribute 'startswith'".toList
  | path => "expected string or buffer".toList

inductive Ending where
  | exit (code : Nat)
  /-- the search for a router fails in a way that is not reported -/
  | noRouter (failure : Failure)
  /-- an error escapes that is not about routing -/
  | escape (e : Error)
  /-- a request that cannot be looked up -/
  | incomplete (gap : Gap)
deriving DecidableEq, Repr

/-- what a run writes and how it ends -/
structure Report where
  emissions : List Emission
  ending : Ending
deriving Repr

def logLine (event : Router.Event) : Text := "perch.routing: ".toList ++ event.message ++ ['\n']

namespace Report

def output (r : Report) : Text :=
  r.emissions.flatMap fun
    | .out t => t
    | _ => []

/-- what goes to the error stream, log records only when they are to be shown -/
def errors (verbose : Bool) (r : Report) : Text :=
  r.emissions.flatMap fun
    | .err t => t
    | .log event => if verbose then logLine event else []
    | .out _ => []

/-- a report with log records in front -/
def behind (events : List Router.Event) (r : Report) : Report := { r with emissions := events.map .log ++ r.emissions }

/-- text for the output, and success -/
def printing (t : Text) : Report := ⟨[.out t], .exit 0⟩

/-- a message on the error stream, and a code -/
def failing (t : Text) (code : Nat) : Report := ⟨[.err (t ++ ['\n'])], .exit code⟩

/-- an error told to the user, and a code -/
def complaint (t : Text) (code : Nat) : Report := failing ("Error: ".toList ++ t) code

end Report

end UriRouting.CommandLine
