/-
Groups: trees of routes. Each group has a base, the start of the templates declared in it, its own routes, and the
groups nested in it. Its routes are its own followed by those of the nested groups, depth first.
-/
import UriRouting.Route
import UriRouting.Uri.Join

namespace UriRouting

inductive Group where
  | mk (base : Text) (routes : List Route) (children : List Group)
deriving Repr

namespace Group

def base : Group → Text
  | mk base _ _ => base

def routes : Group → List Route
  | mk _ routes _ => routes

def children : Group → List Group
  | mk _ _ children => children

mutual
/-- the group's own routes, then those of its children -/
def allRoutes : Group → List Route
  | mk _ routes children => routes ++ allRoutesOf children

def allRoutesOf : List Group → List Route
  | [] => []
  | g :: rest => allRoutes g ++ allRoutesOf rest
end

theorem allRoutesOf_eq_flatMap (gs : List Group) : allRoutesOf gs = gs.flatMap allRoutes := by
  induction gs with
  | nil => rfl
  | cons g gs ih => simp [allRoutesOf, ih]

/-- the template a group gives to a route declared with the relative one; a missing one leaves the base alone -/
def place (base : Text) : Option Text → Option Text
  | some template => some (Uri.join base template)
  | none => if base.isEmpty then none else some base

end Group

end UriRouting
