/-
Patterns: templates compiled into matchers. The expression of a template is its literal text with a named group for
each placeholder, numbered from 0; a bare placeholder's group holds the configured constraint, any other its own
constraint with the shorthands expanded. The whole is put in a group of its own, so that alternatives stay together,
behind the flags it may start with; a tolerated slash follows.

A path matches when the expression matches all of it. The parameters are the texts of those placeholders that took
part, under their names and in the order of the template.
-/
import UriRouting.Config
import UriRouting.Error
import UriRouting.Template.Tokenize
import UriRouting.Template.Shorthand
import UriRouting.Regex.Search
import UriRouting.Regex.Parser

namespace UriRouting

/-- a compiled template -/
structure Pattern where
  template : Text
  /-- the source of the expression -/
  expression : Text
  program : Regex.Program
  /-- the placeholders' names, in order -/
  names : List Text
  tokens : List Template.Token
deriving DecidableEq, Repr

namespace Pattern

def groupName (index : Nat) : Text := "_perch_p".toList ++ Decimal.digits index

def body (config : Config) : Option Text → Except Template.Fault Text
  | none => .ok config.bareConstraint
  | some constraint => (Template.expand constraint).mapError (.bracket constraint)

def group (index : Nat) (body : Text) : Text := "(?P<".toList ++ groupName index ++ '>' :: body ++ [')']

/-- the expression of the tokens behind placeholders of the given names -/
def assemble (config : Config) (seen : List Text) : List Template.Token → Except Template.Fault Text
  | [] => .ok []
  | .literal t :: rest => (assemble config seen rest).map (t ++ ·)
  | .parameter name constraint :: rest =>
    if name ∈ seen then .error (.duplicate name)
    else
      match body config constraint with
      | .error f => .error f
      | .ok b => (assemble config (seen ++ [name]) rest).map (group seen.length b ++ ·)

def isFlagLetter (c : Char) : Bool := c ∈ "aiLmsux".toList

/-- the flag group that a text starts with, and the text behind it -/
def splitFlags (t : Text) : Text × Text :=
  match t with
  | '(' :: '?' :: rest =>
    let letters := rest.takeWhile isFlagLetter
    match rest.dropWhile isFlagLetter with
    | ')' :: behind => if letters.isEmpty then ([], t) else ('(' :: '?' :: letters ++ [')'], behind)
    | _ => ([], t)
  | _ => ([], t)

/-- the expression in a group of its own, behind its flags, a tolerated slash after it -/
def wrap (trailingSlash : Bool) (t : Text) : Text :=
  let (flags, rest) := splitFlags t
  flags ++ "(?:".toList ++ rest ++ ')' :: if trailingSlash then "/?".toList else []

/-- the pattern of a template -/
def compile (config : Config) (template : Text) : Except Error Pattern :=
  match Template.tokenize template with
  | .error f => .error (.compilation template f)
  | .ok tokens =>
    match assemble config [] tokens with
    | .error f => .error (.compilation template f)
    | .ok assembled =>
      let expression := wrap config.trailingSlash assembled
      match Regex.parse expression with
      | .error .incompatibleFlags => .error .incompatibleFlags
      | .error (.unreadableNumber digits) => .error (.unreadableNumber digits)
      | .error _ => .error (.compilation template .rejected)
      | .ok program => .ok ⟨template, expression, program, Template.names tokens, tokens⟩

/-- the parameters that the captures give to the names from an index on -/
def collect (program : Regex.Program) (captures : Regex.Captures) :
    Nat → List Text → Except Error (List (Text × Text))
  | _, [] => .ok []
  | index, name :: rest =>
    match program.names.lookup (groupName index) with
    | none => .error .missingGroup
    | some n =>
      (collect program captures (index + 1) rest).map fun more =>
        match captures.text? n with
        | some t => (name, t) :: more
        | none => more

/-- the parameters of a path that matches, none for one that does not -/
def parameters? (p : Pattern) (path : Text) : Except Error (Option (List (Text × Text))) :=
  match p.program.fullMatch path with
  | none => .ok none
  | some captures => (collect p.program captures 0 p.names).map some

end Pattern

end UriRouting
