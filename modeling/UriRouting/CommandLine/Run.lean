/-
Runs of the command line. The words before the command and the command itself are read first, then the words behind
it by the command's own grammar; words that neither takes are a fault of the whole. Without a command the help is
printed. The words of the form `key=value` are checked before a module is looked up.
-/
import UriRouting.CommandLine.Arguments
import UriRouting.CommandLine.Commands

namespace UriRouting.CommandLine

def stopped (g : Grammar) (about : Text) : Stop → Report
  | .help => .printing (g.help about)
  | .fault words => ⟨[.err (g.usage ++ g.program ++ ": error: ".toList ++ words ++ ['\n'])], .exit 2⟩

/-- the fault of a command that there is not -/
def noSuchCommand (name : Text) : Stop :=
  .fault ("argument command: invalid choice: ".toList ++ name.quoted ++ " (choose from ".toList ++
    Text.joinWith [',', ' '] (commands.map fun c => c.name.quoted) ++ [')'])

/-- the fault of words that nobody takes -/
def unrecognized (words : List Text) : Stop :=
  .fault ("unrecognized arguments: ".toList ++ Text.joinWith [' '] words)

def perform (modules : List Module) (a : Arguments) : Command → Report
  | .listRoutes => withRouter modules (a.wordAt 0) listing
  | .matchPath => withRouter modules (a.wordAt 0) (matchingWords (a.word? 1) (a.word? 2))
  | .renderUrl =>
    match readPairs [] (a.wordsAt 2) with
    | .error word => .complaint ("expected key=value, got ".toList ++ word.quoted) 2
    | .ok parameters => withRouter modules (a.wordAt 0) (rendering (a.wordAt 1) parameters)

/-- run the named command on the words behind it; some words before it may be left over -/
def dispatch (modules : List Module) (extras : List Text) (name : Text) (words : List Text) : Report :=
  match commands.find? (·.name = name) with
  | none => stopped grammar description (noSuchCommand name)
  | some c =>
    match c.grammar.read words with
    | .error e => stopped c.grammar [] e
    | .ok a =>
      match extras ++ a.extras with
      | [] => perform modules a c
      | extras => stopped grammar description (unrecognized extras)

/-- what the words ask for: whether log records are shown, and the report -/
def run (modules : List Module) (words : List Text) : Bool × Report :=
  match grammar.read words with
  | .error e => (false, stopped grammar description e)
  | .ok a =>
    (verboseSwitch ∈ a.switches,
      match a.values, a.extras with
      | (name :: words) :: _, extras => dispatch modules extras name words
      | _, [] => stopped grammar description .help
      | _, extras => stopped grammar description (unrecognized extras))

end UriRouting.CommandLine
