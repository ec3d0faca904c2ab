/-
Character-class shorthands in constraints. A constraint may write `:alpha:` for a class of characters, on its own or
inside a bracket expression, there also in the form `[:alpha:]`. Expansion is textual: outside brackets a shorthand
becomes a bracket expression of its class's members, inside brackets the members alone.

Inside brackets a dash next to a class cannot form a range and is escaped, a leading closing bracket is a member and
is escaped, and an opening bracket is a fault unless it starts a class. Escape pairs are copied, inside and outside. A
shorthand whose name is not known is left as it is.
-/
import UriRouting.Template.Fault

namespace UriRouting.Template

inductive CharClass where
  | alpha
  | digit
  | alnum
  | xdigit
  | ascii
deriving DecidableEq, Repr

namespace CharClass

def all : List CharClass := [alpha, digit, alnum, xdigit, ascii]

def name : CharClass → Text
  | alpha => "alpha".toList
  | digit => "digit".toList
  | alnum => "alnum".toList
  | xdigit => "xdigit".toList
  | ascii => "ascii".toList

/-- what stands for the class inside a bracket expression -/
def members : CharClass → Text
  | alpha => "\\p\x7bL\x7d".toList
  | digit => "\\p\x7bNd\x7d".toList
  | alnum => "\\p\x7bL\x7d\\p\x7bNd\x7d".toList
  | xdigit => "0-9a-fA-F".toList
  | ascii => "\\x00-\\x7F".toList

/-- the shorthand as it stands outside brackets -/
def spelling (c : CharClass) : Text := ':' :: c.name ++ [':']

/-- the shorthand in brackets of its own -/
def bracketed (c : CharClass) : Text := '[' :: c.spelling ++ [']']

end CharClass

/-- the shorthand a text inside brackets starts with, in either form: its class and its length -/
def memberAt? (t : Text) : Option (CharClass × Nat) :=
  match CharClass.all.find? fun c => c.bracketed.isPrefixOf t with
  | some c => some (c, c.bracketed.length)
  | none => (CharClass.all.find? fun c => c.spelling.isPrefixOf t).map fun c => (c, c.spelling.length)

/-- where the scan of a constraint is: outside brackets, or within the one opened at a position -/
inductive Place where
  | outside
  | within (opened : Nat)
deriving DecidableEq, Repr

/-- put text before a result -/
def emit (t : Text) (r : Except BracketFault Text) : Except BracketFault Text := r.map (t ++ ·)

/-- what the opening of a bracket expression takes beyond the bracket: how many characters, and what is written -/
def opening : Text → Nat × Text
  | '^' :: ']' :: _ => (2, "^\\]".toList)
  | '^' :: _ => (1, "^".toList)
  | ']' :: _ => (1, "\\]".toList)
  | _ => (0, [])

/-- the expansion of the rest of a constraint, from a place and a position -/
def expandFrom (place : Place) (position : Nat) : Text → Except BracketFault Text
  | [] =>
    match place with
    | .outside => .ok []
    | .within opened => .error (.unclosed opened)
  | '\\' :: rest => emit ('\\' :: rest.take 1) (expandFrom place (position + 2) (rest.drop 1))
  | c :: rest =>
    match place with
    | .outside =>
      if c = '(' ∧ rest.take 2 = ['?', ':'] then
        emit "(?:".toList (expandFrom .outside (position + 3) (rest.drop 2))
      else if c = '[' then
        let (n, written) := opening rest
        emit ('[' :: written) (expandFrom (.within position) (position + 1 + n) (rest.drop n))
      else
        match CharClass.all.find? fun k => k.spelling.isPrefixOf (c :: rest) with
        | some k =>
          let n := k.spelling.length - 1
          emit ('[' :: k.members ++ [']']) (expandFrom .outside (position + 1 + n) (rest.drop n))
        | none => emit [c] (expandFrom .outside (position + 1) rest)
    | .within opened =>
      if c = ']' then emit [']'] (expandFrom .outside (position + 1) rest)
      else
        match memberAt? (c :: rest) with
        | some (k, length) =>
          let n := length - 1
          let dash := (rest.drop n).head? = some '-'
          let n := if dash then n + 1 else n
          emit (k.members ++ if dash then "\\-".toList else [])
            (expandFrom (.within opened) (position + 1 + n) (rest.drop n))
        | none =>
          if c = '[' then .error (.nested position)
          else
            let written := if c = '-' ∧ (memberAt? rest).isSome then "\\-".toList else [c]
            emit written (expandFrom (.within opened) (position + 1) rest)
termination_by t => t.length
decreasing_by all_goals simp; try omega

def expand (constraint : Text) : Except BracketFault Text := expandFrom .outside 0 constraint

end UriRouting.Template
