/-
Errors: why a route is refused, a pattern cannot be compiled, or a URI cannot be rendered, and how each is told. Three
of them are not about the caller's routes or parameters but about what an expression does: flags in it that exclude each
other, digits in it that write no number, and a placeholder that is no group of it. These are no routing errors.
-/
import UriRouting.Codepoint.DecimalDigit
import UriRouting.Template.Fault

namespace UriRouting

inductive Error where
  /-- an error of no particular kind -/
  | general (words : Text)
  /-- a refused route, in the words of whoever refuses it -/
  | validation (words : Text)
  /-- a route without a pattern -/
  | invalidPattern (words : Text)
  /-- a route whose method is missing or not known -/
  | invalidMethod (method : Option Text)
  /-- a route whose name is taken -/
  | duplicateName (name : Text)
  /-- a pattern with a fault -/
  | compilation (pattern : Text) (fault : Template.Fault)
  /-- a placeholder without a value -/
  | unresolvedParameter (name pattern : Text)
  /-- an expression turns on flags that exclude each other -/
  | incompatibleFlags
  /-- an expression has digits where they write no number, or none where a number is read -/
  | unreadableNumber (digits : Text)
  /-- a placeholder ended up where it is no group of the expression -/
  | missingGroup
deriving DecidableEq, Repr

namespace Error

def emptyPattern : Error := .invalidPattern "The uri pattern cannot be null or empty".toList

def message : Error → Text
  | general words | validation words | invalidPattern words => words
  | invalidMethod none | invalidMethod (some []) => "Unspecified request method".toList
  | invalidMethod (some method) => "Unknown request method ".toList ++ method.quoted
  | duplicateName name => "A route named ".toList ++ name.quoted ++ " is already registered".toList
  | compilation pattern fault =>
    "Cannot compile uri pattern ".toList ++ pattern.quoted ++ ": ".toList ++ fault.message
  | unresolvedParameter name pattern =>
    "No value supplied for parameter ".toList ++ name.quoted ++ " in ".toList ++ pattern.quoted
  | incompatibleFlags => "ASCII, LOCALE and UNICODE flags are mutually incompatible".toList
  | unreadableNumber digits =>
    let length := (digits.takeWhile fun c => Codepoint.isDecimalDigit c.toNat).length
    if Decimal.readableLength < length then
      "Exceeds the limit (".toList ++ Decimal.digits Decimal.readableLength ++
        " digits) for integer string conversion: value has ".toList ++ Decimal.digits length ++
        " digits; use sys.set_int_max_str_digits() to increase the limit".toList
    else "invalid literal for int() with base 10: ".toList ++ digits.quoted.take 200
  | missingGroup => "no such group".toList

/-- an error about routes, patterns or parameters -/
def isRouting : Error → Bool
  | incompatibleFlags | unreadableNumber _ | missingGroup => false
  | _ => true

end Error

end UriRouting
