/-
The settings of a router.
-/
import UriRouting.Text.Basic

namespace UriRouting

/-- settings, fixed when a router is made -/
structure Config where
  /-- where the application is mounted: put before rendered URIs, taken off request paths -/
  contextPath : Text
  /-- tolerate one slash after a pattern that does not take it itself -/
  trailingSlash : Bool
  /-- the constraint of a bare placeholder -/
  bareConstraint : Text
deriving DecidableEq, Repr

/-- not mounted anywhere, tolerant, and one path segment for a bare placeholder -/
def Config.standard : Config := ⟨[], true, "[^/]+".toList⟩

end UriRouting
