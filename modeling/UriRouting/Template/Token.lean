/-
Tokens of a URI template. A template is text to be read as a regular expression, with placeholders between: `name` or
`name: constraint` in braces. A token list is the template cut at its placeholders; `Token.print` writes one back.
-/
import UriRouting.Text.Basic

namespace UriRouting.Template

inductive Token where
  /-- text outside every placeholder, kept as written -/
  | literal (text : Text)
  /-- a placeholder, bare or with a constraint -/
  | parameter (name : Text) (constraint : Option Text)
deriving DecidableEq, Repr

namespace Token

def print : Token → Text
  | literal t => t
  | parameter n none => '{' :: n ++ ['}']
  | parameter n (some c) => '{' :: n ++ [':', ' '] ++ c ++ ['}']

def name? : Token → Option Text
  | literal _ => none
  | parameter n _ => some n

end Token

def print (tokens : List Token) : Text := tokens.flatMap Token.print

def names (tokens : List Token) : List Text := tokens.filterMap Token.name?

end UriRouting.Template
