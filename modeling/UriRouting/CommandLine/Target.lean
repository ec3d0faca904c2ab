/-
Targets: the router that an import string names. An import string is a module's name and, behind its first colon, the
name of an attribute of the module; without one the attribute is `router`. The attribute is a router, a group, which is
registered in a fresh router, or a factory, which is called for one of the two.
-/
import UriRouting.CommandLine.Module

namespace UriRouting.CommandLine

/-- why there is no router -/
inductive Failure where
  | emptyModuleName
  /-- a module's name that starts with a dot -/
  | relativeModule (name : Text)
  | unknownModule (name : Text)
  /-- a module that would have to stand in another, which has none in it -/
  | notPackage (name parent : Text)
  | missingAttribute (home item : Text)
  /-- something that is neither router nor group: where it came from, and its kind -/
  | wrongKind (origin kind : Text)
  | factoryFailed (home item words : Text)
  /-- routes of a group that cannot be registered -/
  | refused (e : Error)
deriving DecidableEq, Repr

namespace Failure

def message : Failure → Text
  | emptyModuleName => "Empty module name".toList
  | relativeModule name =>
    "the 'package' argument is required to perform a relative import for ".toList ++ name.quoted
  | unknownModule name => "No module named ".toList ++ name.quoted
  | notPackage name parent =>
    "No module named ".toList ++ name.quoted ++ "; ".toList ++ parent.quoted ++ " is not a package".toList
  | missingAttribute home item =>
    "module ".toList ++ home.quoted ++ " has no attribute ".toList ++ item.quoted
  | wrongKind origin kind =>
    origin ++ " is a ".toList ++ kind ++ ", expected a Router or RouteGroup".toList
  | factoryFailed home item words =>
    "router factory ".toList ++ item.quoted ++ " in module ".toList ++ home.quoted ++ " failed: ".toList ++ words
  | refused e => e.message

/-- a failure that the command line reports; any other escapes from it -/
def isReported : Failure → Bool
  | emptyModuleName => false
  | refused e => e.isRouting
  | _ => true

end Failure

/-- the text before the last dot, when there is a dot -/
def parent? (name : Text) : Option Text := (Text.cutAt '.' name.reverse).2.map List.reverse

/-- import a module, its parents first; at most so many levels -/
def importTo (modules : List Module) : Nat → Text → Except Failure Module
  | 0, name => .error (.unknownModule name)
  | levels + 1, name =>
    match modules.find? (·.name = name) with
    | some m => .ok m
    | none =>
      match parent? name with
      | none | some [] => .error (.unknownModule name)
      | some parent =>
        match importTo modules levels parent with
        | .error e => .error e
        | .ok _ => .error (.notPackage name parent)

def importModule (modules : List Module) (name : Text) : Except Failure Module :=
  match name with
  | [] => .error .emptyModuleName
  | '.' :: _ => .error (.relativeModule name)
  | _ => importTo modules name.length name

/-- what looking for a router gives, and what is logged meanwhile -/
structure Found where
  answer : Except Failure Router
  events : List Router.Event

/-- what came from a place, as a router -/
def Attribute.asRouter (origin : Text) : Attribute → Found
  | router r => ⟨.ok r, []⟩
  | group g =>
    let step := (Router.empty .standard).addGroup g
    ⟨match step.answer with | .ok _ => .ok step.router | .error e => .error (.refused e), step.events⟩
  | value v => ⟨.error (.wrongKind origin (kindOf v)), []⟩
  | other kind => ⟨.error (.wrongKind origin kind), []⟩
  | factory _ _ => ⟨.error (.wrongKind origin "function".toList), []⟩

/-- an import string as a module's name and an attribute's -/
def splitImport (target : Text) : Text × Text :=
  match target.cutAt ':' with
  | (home, none) | (home, some []) => (home, "router".toList)
  | (home, some item) => (home, item)

/-- the router that an import string names -/
def resolve (modules : List Module) (target : Text) : Found :=
  let (home, item) := splitImport target
  match importModule modules home with
  | .error e => ⟨.error e, []⟩
  | .ok m =>
    match m.attribute? item with
    | none => ⟨.error (.missingAttribute home item), []⟩
    | some (.factory (.error words) events) => ⟨.error (.factoryFailed home item words), events⟩
    | some (.factory (.ok made) events) =>
      let found := made.asRouter (home ++ ':' :: item ++ "()".toList)
      { found with events := events ++ found.events }
    | some plain => plain.asRouter (home ++ ':' :: item)

end UriRouting.CommandLine
