/-
Groups under construction. A forest holds groups by number; a child is held by reference, so that what is declared in
it later shows in every group that holds it. `tree` reads one of them off as a finished group, which is all of it as
long as no group is held inside itself.
-/
import UriRouting.Group.Basic

namespace UriRouting

/-- a group whose children are numbers in a forest -/
structure Forest.Node where
  base : Text
  routes : List Route
  children : List Nat
deriving Repr

/-- groups under construction, numbered from 0 -/
structure Forest where
  nodes : List Forest.Node
deriving Repr

namespace Forest

def empty : Forest := ⟨[]⟩

/-- a new group with the base; its number is the count of groups before -/
def plant (f : Forest) (base : Text) : Forest := ⟨f.nodes ++ [⟨base, [], []⟩]⟩

def baseOf (f : Forest) (n : Nat) : Text := ((f.nodes[n]?).map Node.base).getD []

def attach (f : Forest) (n child : Nat) : Forest :=
  ⟨f.nodes.modify n fun g => { g with children := g.children ++ [child] }⟩

/-- a new group inside another, the given base joined to its parent's -/
def nest (f : Forest) (n : Nat) (base : Text) : Forest :=
  (f.plant (Uri.join (f.baseOf n) base)).attach n f.nodes.length

/-- a group's routes with one more, taken as it is -/
def append (f : Forest) (n : Nat) (route : Route) : Forest :=
  ⟨f.nodes.modify n fun g => { g with routes := g.routes ++ [route] }⟩

/-- the route as it is declared in a group: its template behind the group's base -/
def placed (f : Forest) (n : Nat) (route : Route) : Route :=
  { route with template := Group.place (f.baseOf n) route.template }

def declare (f : Forest) (n : Nat) (route : Route) : Forest := f.append n (f.placed n route)

def treeTo (f : Forest) : Nat → Nat → Group
  | 0, _ => .mk [] [] []
  | depth + 1, n =>
    match f.nodes[n]? with
    | none => .mk [] [] []
    | some g => .mk g.base g.routes (g.children.map (f.treeTo depth))

/-- a group as a tree; as many levels as there are groups are enough -/
def tree (f : Forest) (n : Nat) : Group := f.treeTo f.nodes.length n

end Forest

end UriRouting
