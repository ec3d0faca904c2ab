/-
Values of parameters. A caller of the URI renderer may pass any of these for a placeholder or for a query parameter,
and a route's handler may be one. `text` is how a value reads within a URI; `written` is how it reads inside another
value, where texts stand in quotes.
-/
import UriRouting.Text.Quoted
import UriRouting.Decimal.Shortest

namespace UriRouting

inductive Value where
  /-- the value that stands for no value -/
  | absent
  | truth (b : Bool)
  | integer (i : Int)
  /-- the double with the given bits -/
  | double (bits : Nat)
  | text (t : Text)
  /-- bytes, each below 256 -/
  | bytes (bs : List Nat)
  | list (items : List Value)
  | tuple (items : List Value)
  | mapping (entries : List (Text × Value))
deriving Repr

namespace Value

/-- one byte inside the given quotes -/
def escapeByte (mark : Char) (b : Nat) : Text :=
  let c := Char.ofNat b
  if c = '\\' ∨ c = mark then ['\\', c]
  else if c = '\n' then ['\\', 'n']
  else if c = '\r' then ['\\', 'r']
  else if c = '\t' then ['\\', 't']
  else if 0x20 ≤ b ∧ b < 0x7F then [c]
  else '\\' :: 'x' :: hexDigits 2 b

def quotedBytes (bs : List Nat) : Text :=
  let mark := if bs.contains 0x27 && !bs.contains 0x22 then '"' else '\''
  'b' :: mark :: (bs.flatMap (escapeByte mark) ++ [mark])

/-- items between brackets, separated by a comma and a blank -/
def commaSeparated (items : List Text) : Text := Text.joinWith [',', ' '] items

mutual
/-- the value as it reads inside another value -/
def written : Value → Text
  | absent => "None".toList
  | truth b => if b then "True".toList else "False".toList
  | integer i => Decimal.signedDigits i
  | double bits => (Decimal.Double.ofBits bits).text
  | text t => t.quoted
  | bytes bs => quotedBytes bs
  | list items => '[' :: commaSeparated (writtenAll items) ++ [']']
  | tuple items =>
    match writtenAll items with
    | [item] => '(' :: item ++ [',', ')']
    | items => '(' :: commaSeparated items ++ [')']
  | mapping entries => '\x7b' :: commaSeparated (writtenEntries entries) ++ ['\x7d']

def writtenAll : List Value → List Text
  | [] => []
  | v :: rest => written v :: writtenAll rest

def writtenEntries : List (Text × Value) → List Text
  | [] => []
  | (key, v) :: rest => (key.quoted ++ [':', ' '] ++ written v) :: writtenEntries rest
end

/-- the value as it reads within a URI: a text as it is, any other value as it is written -/
def inUri : Value → Text
  | text t => t
  | v => v.written

end Value

end UriRouting
