/-
The public names of the package and where each is defined. A name is either a constant or a definition in a module; an
alias is told as the definition it stands for.
-/
import UriRouting.Route
import UriRouting.Text.Quoted

namespace UriRouting

/-- what a public name stands for -/
inductive Export where
  | constant (value : Text)
  | definition (home name : Text)
deriving DecidableEq, Repr

namespace Export

def package : Text := "perch".toList

/-- a definition in a module of the package -/
def defined (home name : String) : Export := .definition (package ++ '.' :: home.toList) name.toList

/-- a definition under its own name -/
def within (home name : String) : Text × Export := (name.toList, defined home name)

def table : List (Text × Export) :=
  [("ALL".toList, .constant Method.all),
   ("PatternError".toList, defined "errors" "CompilationError"),
   within "routing.route" "Route", within "routing.route" "RouteGroup", within "routing.route" "RouteMatch",
   within "routing.router" "Router", within "config" "RouterConfig", within "routing.pattern" "compile_pattern",
   within "errors" "CompilationError", within "errors" "DuplicateRouteNameError",
   within "errors" "InvalidMethodError", within "errors" "InvalidPatternError", within "errors" "PerchError",
   within "errors" "RouteValidationError", within "errors" "UnresolvedParameterError"]

/-- what a name stands for; fails with the message for a name that is not public -/
def find (name : Text) : Except Text Export :=
  match table.lookup name with
  | some e => .ok e
  | none => .error ("module ".toList ++ package.quoted ++ " has no attribute ".toList ++ name.quoted)

end Export

end UriRouting
