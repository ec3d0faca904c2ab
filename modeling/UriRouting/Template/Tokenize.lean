/-
Reading a template as tokens. The segments outside braces, and the braces that hold a quantifier such as `3` or `1,4`,
are literal text; neighbouring stretches of literal text form one token. All other braces are placeholders: the name
is the trimmed text before the first colon, the constraint the trimmed text after it, absent when that is blank.

The first fault from the left is the one told: a placeholder without a name, or a brace that nothing closes.
-/
import UriRouting.Template.Segment
import UriRouting.Template.Token
import UriRouting.Template.Fault
import UriRouting.Text.Blank
import UriRouting.Codepoint.DecimalDigit

namespace UriRouting.Template

/-- digits, and after them perhaps a comma and any number of digits -/
def isQuantifier (inner : Text) : Bool :=
  let isDigit := fun c : Char => Codepoint.isDecimalDigit c.toNat
  !(inner.takeWhile isDigit).isEmpty &&
    match inner.dropWhile isDigit with
    | [] => true
    | c :: rest => c == ',' && rest.all isDigit

/-- the placeholder that the text between braces describes; none when it has no name -/
def parameter? (inner : Text) : Option Token :=
  let (before, after) := inner.cutAt ':'
  match before.trim with
  | [] => none
  | name =>
    match (after.getD []).trim with
    | [] => some (.parameter name none)
    | constraint => some (.parameter name (some constraint))

/-- put pending literal text before the tokens -/
def flush (pending : Text) (tokens : List Token) : List Token :=
  if pending.isEmpty then tokens else .literal pending :: tokens

/-- the tokens of the segments that start at the position, with literal text pending before them -/
def gather (pending : Text) (position : Nat) : List Segment → Except Fault (List Token)
  | [] => .ok (flush pending [])
  | .unclosed _ :: _ => .error (.unbalanced position)
  | .braces inner :: rest =>
    let next := position + inner.length + 2
    if isQuantifier inner then gather (pending ++ (Segment.braces inner).text) next rest
    else
      match parameter? inner with
      | none => .error (.unnamed inner)
      | some token => (gather [] next rest).map fun tokens => flush pending (token :: tokens)
  | segment :: rest => gather (pending ++ segment.text) (position + segment.text.length) rest

def tokenize (template : Text) : Except Fault (List Token) := gather [] 0 (segments template)

end UriRouting.Template
