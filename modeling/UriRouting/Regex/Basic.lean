/-
Regular expressions as trees. A sequence and an alternative have two parts each; longer ones nest to the right. Groups
are numbered from 1 in the order their parentheses open, and a name stands for the number of the group that bore it
first.
-/
import UriRouting.Regex.CharTest

namespace UriRouting.Regex

inductive Anchor where
  | textStart
  | lineStart
  | textEnd
  /-- the end, or just before a newline that ends the text -/
  | finalLineEnd
  | lineEnd
  | wordStart
  | wordEnd
  | wordBoundary
  | noWordBoundary
deriving DecidableEq, Hashable, Repr

/-- the group a back-reference means -/
inductive Reference where
  | number (n : Nat)
  | name (t : Text)
deriving DecidableEq, Hashable, Repr

/-- how often something is repeated: at least `least` times, at most `most` times; as often as possible first, or as
seldom as possible first when `lazy` -/
structure Repetition where
  least : Nat
  most : Option Nat
  lazy : Bool
deriving DecidableEq, Hashable, Repr

inductive Expr where
  | empty
  | char (test : CharTest)
  | anchor (a : Anchor)
  | cat (a b : Expr)
  | alt (a b : Expr)
  | group (number : Nat) (body : Expr)
  | backref (r : Reference) (caseless : Bool)
  | repeated (body : Expr) (r : Repetition)
  /-- the first way to match the body, and no other -/
  | atomic (body : Expr)
  /-- the body matches here, ahead or behind; or it does not -/
  | look (behind negated : Bool) (body : Expr)
deriving DecidableEq, Hashable, Repr

namespace Expr

def ofSequence : List Expr → Expr
  | [] => empty
  | [e] => e
  | e :: f :: rest => cat e (ofSequence (f :: rest))

/-- the first of the branches that leads to a match -/
def ofBranches : List Expr → Expr
  | [] => empty
  | [e] => e
  | e :: f :: rest => alt e (ofBranches (f :: rest))

def references : Expr → List Reference
  | empty | char _ | anchor _ => []
  | backref r _ => [r]
  | cat a b | alt a b => a.references ++ b.references
  | group _ e | repeated e _ | atomic e | look _ _ e => e.references

/-- how deep atomic groups and looks are nested -/
def depth : Expr → Nat
  | empty | char _ | anchor _ | backref _ _ => 0
  | cat a b | alt a b => max a.depth b.depth
  | group _ e | repeated e _ => e.depth
  | atomic e | look _ _ e => e.depth + 1

end Expr

/-- a regular expression with the numbers of its named groups -/
structure Program where
  root : Expr
  /-- how many groups there are -/
  groups : Nat
  names : List (Text × Nat)
  /-- its classes know ASCII only -/
  asciiOnly : Bool
deriving DecidableEq, Repr

def Reference.resolve (names : List (Text × Nat)) : Reference → Option Nat
  | number n => some n
  | name t => names.lookup t

def Program.knows (p : Program) (r : Reference) : Bool :=
  match r.resolve p.names with
  | some n => 1 ≤ n && n ≤ p.groups
  | none => false

end UriRouting.Regex
