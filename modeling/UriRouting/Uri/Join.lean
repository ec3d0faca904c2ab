/-
Joining pieces of a URI with exactly one slash between them. An empty piece adds nothing, not even a slash.
-/
import UriRouting.Text.Basic

namespace UriRouting.Uri

/-- the first piece without its trailing slashes, one slash, the second without its leading ones -/
def join (base rest : Text) : Text :=
  if base = [] then rest
  else if rest = [] then base
  else base.dropTrailing '/' ++ '/' :: rest.dropLeading '/'

end UriRouting.Uri
