/-
Rendering a URI from a token list and parameters. Each placeholder takes the value of its name out of the parameters
and writes it without encoding. The parameters that no placeholder took follow as a query string, form-encoded in
their order: absent values are left out, a list or a tuple repeats its key for each of its items.
-/
import UriRouting.Template.Token
import UriRouting.Query.FormEncoding
import UriRouting.Value

namespace UriRouting.Uri

/-- named values in the order they were given, no name twice -/
abbrev Parameters := List (Text × Value)

/-- the path that the tokens write, and the parameters left over; fails with the first name that has no value -/
def fill (parameters : Parameters) : List Template.Token → Except Text (Text × Parameters)
  | [] => .ok ([], parameters)
  | .literal t :: rest => (fill parameters rest).map fun (path, left) => (t ++ path, left)
  | .parameter name _ :: rest =>
    match parameters.lookup name with
    | none | some .absent => .error name
    | some v =>
      (fill (parameters.filter fun p => p.1 ≠ name) rest).map fun (path, left) => (v.inUri ++ path, left)

/-- the pairs that a leftover parameter adds to the query -/
def pairs : Text × Value → List (Text × Text)
  | (key, .list items) | (key, .tuple items) => items.map fun v => (key, v.inUri)
  | (key, v) => [(key, v.inUri)]

def isPresent : Text × Value → Bool
  | (_, .absent) => false
  | _ => true

/-- the query part for the leftover parameters: nothing when none of them has a value -/
def query (left : Parameters) : Text :=
  match left.filter isPresent with
  | [] => []
  | present => '?' :: FormEncoding.encode (present.flatMap pairs)

/-- the URI for a token list and parameters; fails with the first name that has no value -/
def render (tokens : List Template.Token) (parameters : Parameters) : Except Text Text :=
  (fill parameters tokens).map fun (path, left) => path ++ query left

end UriRouting.Uri
