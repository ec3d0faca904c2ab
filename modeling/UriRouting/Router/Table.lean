/-
Route tables: the registered routes with their patterns, in the order of registration, indexed for lookups by method
and by name. A table is only ever made by `build`, from its entries.
-/
import UriRouting.Route
import UriRouting.Pattern

namespace UriRouting.Router

/-- a registered route and its pattern -/
structure Entry where
  route : Route
  pattern : Pattern
deriving Repr

structure Table where
  entries : List Entry
  /-- for each method the entries a lookup considers, in order -/
  byMethod : List (Text × List Entry)
  /-- routes by name, the latest first -/
  byName : List (Text × Route)
deriving Repr

namespace Table

/-- the entries that a lookup for the method considers -/
def visible (entries : List Entry) (method : Text) : List Entry := entries.filter (·.route.isVisible method)

/-- the route under its name, when it has a proper one -/
def named? (e : Entry) : Option (Text × Route) := e.route.properName?.map (·, e.route)

def build (entries : List Entry) : Table :=
  ⟨entries, Method.known.map fun m => (m, visible entries m), (entries.filterMap named?).reverse⟩

/-- the entries for a method, none when it is not known -/
def candidates (t : Table) (method : Text) : List Entry := (t.byMethod.lookup method).getD []

def route? (t : Table) (name : Text) : Option Route := t.byName.lookup name

def names (t : Table) : List Text := t.byName.map Prod.fst

end Table

end UriRouting.Router
