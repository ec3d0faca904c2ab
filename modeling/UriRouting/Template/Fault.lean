/-
What can be wrong with a template, and how each fault is told. Positions count characters from 0. The wording of a
fault found by the expression reader is not part of it: such a fault is told by a fixed stand-in.
-/
import UriRouting.Text.Quoted
import UriRouting.Decimal.Natural

namespace UriRouting.Template

inductive BracketFault where
  /-- the bracket opened at the position is never closed -/
  | unclosed (position : Nat)
  /-- an opening bracket at the position, inside another one -/
  | nested (position : Nat)
deriving DecidableEq, Repr

/-- the fault told, for the constraint it was found in -/
def BracketFault.message (constraint : Text) : BracketFault → Text
  | unclosed n =>
    "unbalanced '[' at position ".toList ++ Decimal.digits n ++ " in constraint ".toList ++ constraint.quoted
  | nested n =>
    "nested '[' at position ".toList ++ Decimal.digits n ++ " in constraint ".toList ++ constraint.quoted ++
      "; escape it or use a [:name:] class".toList

inductive Fault where
  /-- the brace opened at the position is never closed -/
  | unbalanced (position : Nat)
  /-- a placeholder whose text before its first colon is blank -/
  | unnamed (inner : Text)
  /-- two placeholders of one name -/
  | duplicate (name : Text)
  /-- a constraint with a bracket fault -/
  | bracket (constraint : Text) (fault : BracketFault)
  /-- the assembled expression is no regular expression -/
  | rejected
  /-- a fault told in the words of whoever reports it -/
  | reported (words : Text)
deriving DecidableEq, Repr

def Fault.message : Fault → Text
  | unbalanced n => "unbalanced '\x7b' at position ".toList ++ Decimal.digits n
  | unnamed inner => "placeholder \x7b".toList ++ inner ++ "\x7d has no name".toList
  | duplicate name => "duplicate parameter ".toList ++ name.quoted
  | bracket constraint fault => fault.message constraint
  | rejected => "<regex>".toList
  | reported words => words

end UriRouting.Template
