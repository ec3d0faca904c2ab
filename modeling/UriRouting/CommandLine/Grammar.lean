/-
The grammar of the command line: its switches, its commands with their operands, and the usage and help texts that
these declarations print. No text here is long enough to need wrapping.
-/
import UriRouting.Text.Basic

namespace UriRouting.CommandLine

/-- an option that takes no value, with a short and a long name -/
structure Switch where
  short : Text
  long : Text
  help : Text
deriving DecidableEq, Repr

/-- how many words an operand takes -/
inductive Arity where
  | one
  /-- any number of words -/
  | many
  /-- a word and all that follow it, whatever they look like; may be left out -/
  | remainder
deriving DecidableEq, Repr

/-- an operand: a word, or some words, known by position -/
structure Operand where
  label : Text
  arity : Arity
  help : Text
deriving DecidableEq, Repr

/-- what one reading of words knows: the program's name as shown, its switches and its operands -/
structure Grammar where
  program : Text
  switches : List Switch
  operands : List Operand
deriving DecidableEq, Repr

inductive Command where
  /-- list the routes of a router -/
  | listRoutes
  /-- show which routes match a request -/
  | matchPath
  /-- render a URI -/
  | renderUrl
deriving DecidableEq, Repr

def program : Text := "perch".toList

def description : Text := "Perch — URI templates, route matching, and reverse routing.".toList

def helpSwitch : Switch := ⟨"-h".toList, "--help".toList, "show this help message and exit".toList⟩

def verboseSwitch : Switch := ⟨"-v".toList, "--verbose".toList, "Log routing decisions to stderr".toList⟩

def routerOperand : Operand := ⟨"router".toList, .one, "Import string (e.g. myapp:router)".toList⟩

namespace Command

def name : Command → Text
  | listRoutes => "routes".toList
  | matchPath => "match".toList
  | renderUrl => "url".toList

def summary : Command → Text
  | listRoutes => "List registered routes".toList
  | matchPath => "Show every route matching a path".toList
  | renderUrl => "Render a URI from a route name or pattern".toList

def operands : Command → List Operand
  | listRoutes => [routerOperand]
  | matchPath =>
    [routerOperand, ⟨"method".toList, .one, "Request method (e.g. GET)".toList⟩,
      ⟨"path".toList, .one, "Raw request path (e.g. /contact/5)".toList⟩]
  | renderUrl =>
    [routerOperand, ⟨"target".toList, .one, "Route name or uri pattern".toList⟩,
      ⟨"key=value".toList, .many, "Parameter values; leftovers become the query string".toList⟩]

end Command

/-- all commands, in the order in which they are offered -/
def commands : List Command := [.listRoutes, .matchPath, .renderUrl]

def choice : Text := '\x7b' :: Text.joinWith [','] (commands.map Command.name) ++ ['\x7d']

/-- the grammar of the words before the command, the command, and all that follows it -/
def grammar : Grammar := ⟨program, [helpSwitch, verboseSwitch], [⟨choice, .remainder, []⟩]⟩

def Command.grammar (c : Command) : Grammar := ⟨program ++ ' ' :: c.name, [helpSwitch], c.operands⟩

def Operand.usage (o : Operand) : Text :=
  match o.arity with
  | .one => o.label
  | .many => '[' :: o.label ++ " ...]".toList
  | .remainder => o.label ++ " ...".toList

def Grammar.usage (g : Grammar) : Text :=
  "usage: ".toList ++
    Text.joinWith [' '] (g.program :: g.switches.map (fun s => '[' :: s.short ++ [']']) ++ g.operands.map Operand.usage)
    ++ ['\n']

/-- a line of a help text: a label, and what there is to say about it in a column of its own -/
structure Row where
  indent : Nat
  label : Text
  help : Text

def Row.line (column : Nat) (r : Row) : Text :=
  let label := List.replicate r.indent ' ' ++ r.label
  (if r.help.isEmpty then label else Text.padRight column label ++ r.help) ++ ['\n']

/-- rows for the operands; a choice of commands is followed by a row for each -/
def operandRows (g : Grammar) : List Row :=
  g.operands.flatMap fun o =>
    ⟨2, o.label, o.help⟩ :: if o.arity = .remainder then commands.map fun c => ⟨4, c.name, c.summary⟩ else []

def switchRows (g : Grammar) : List Row := g.switches.map fun s => ⟨2, s.short ++ ", ".toList ++ s.long, s.help⟩

/-- the help text, with something about the program when there is something to say -/
def Grammar.help (g : Grammar) (about : Text) : Text :=
  let operands := operandRows g
  let switches := switchRows g
  let column := (operands ++ switches).foldl (fun n r => max n (r.indent + r.label.length + 2)) 0
  let lines := fun rows : List Row => rows.flatMap (Row.line column)
  g.usage ++ '\n' :: (if about.isEmpty then [] else about ++ ['\n', '\n']) ++
    "positional arguments:\n".toList ++ lines operands ++ "\noptions:\n".toList ++ lines switches

end UriRouting.CommandLine
