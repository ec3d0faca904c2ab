/-
Tolerances. Braces behind an element can ask that a text may differ from it by a few mistakes: `{e<=2}`, `{i,d<3}`,
`{1<=s<=3}` or `{2i+1d<=4}`, where e is any mistake, d a deletion, i an insertion and s a substitution. Matching here is
exact, so an expression that asks for a tolerance is refused, whether or not it is well formed. What does not begin like
one is text: `checkTolerance` tells the two apart.
-/
import UriRouting.Regex.Reader

namespace UriRouting.Regex

/-- what a condition of a tolerance bounds -/
inductive Bounded where
  | mistakes
  | deletions
  | insertions
  | substitutions
  /-- the sum of the mistakes, each kind with a weight of its own -/
  | weights
deriving DecidableEq, Repr

namespace Bounded

def ofLetter? : Char → Option Bounded
  | 'e' => some mistakes
  | 'd' => some deletions
  | 'i' => some insertions
  | 's' => some substitutions
  | _ => none

def all : List Bounded := [mistakes, deletions, insertions, substitutions, weights]

/-- what weights can be given to -/
def weighable : List Bounded := [deletions, insertions, substitutions]

end Bounded

/-- the source after a sign of comparison, when that is next -/
def pastComparison? (verbose : Bool) (s : Text) : Option Text :=
  (accept? verbose '<' s).map fun rest => (accept? verbose '=' rest).getD rest

/-- a kind of mistake that is still free, with the source after its letter -/
def mistake? (verbose : Bool) (free : List Bounded) (s : Text) : Option (Bounded × Text) :=
  match next? verbose s with
  | some (c, rest) =>
    match Bounded.ofLetter? c with
    | some b => if b ∈ free then some (b, rest) else none
    | none => none
  | none => none

/-- an upper bound, which must be given where it is read -/
def upperBound (verbose : Bool) (b : Bounded) (s : Text) : Except Fault (Option (Bounded × Text)) :=
  let (digits, rest) := takeRun verbose isDigit s
  if digits.isEmpty then .error .tolerance else .ok (some (b, rest))

/-- the source after a weighted sum of mistakes; none when no sum stands there -/
def pastWeights (verbose : Bool) (free : List Bounded) (s : Text) : Except Fault (Option Text) :=
  match next? verbose (takeRun verbose isDigit s).2 with
  | none => .ok none
  | some (c, rest) =>
    match Bounded.ofLetter? c with
    | none => .ok none
    | some b =>
      if _ : b ∈ free then
        match accept? verbose '+' rest with
        | some rest => pastWeights verbose (free.erase b) rest
        | none => .ok (some rest)
      else if b ∈ Bounded.weighable then .error .tolerance
      else .ok none
termination_by free.length
decreasing_by
  have := List.length_pos_of_mem ‹b ∈ free›
  rw [List.length_erase_of_mem ‹b ∈ free›]
  omega

/-- a bounded sum of weighted mistakes; a tolerance has one at most -/
def weightsCondition (verbose : Bool) (free : List Bounded) (s : Text) : Except Fault (Option (Bounded × Text)) :=
  if .weights ∉ free then .error .tolerance
  else
    match pastWeights verbose Bounded.weighable s with
    | .error f => .error f
    | .ok none => .ok none
    | .ok (some rest) =>
      match pastComparison? verbose rest with
      | none => .ok none
      | some rest =>
        let (digits, rest) := takeRun verbose isDigit rest
        if digits.isEmpty then .error (.unreadableNumber digits) else .ok (some (.weights, rest))

/-- a condition: a kind of mistake, with bounds or without, or a sum of weighted ones; none when none stands there -/
def toleranceCondition (verbose : Bool) (free : List Bounded) (s : Text) : Except Fault (Option (Bounded × Text)) :=
  match mistake? verbose free s with
  | some (b, rest) =>
    match pastComparison? verbose rest with
    | some rest => upperBound verbose b rest
    | none => .ok (some (b, rest))
  | none =>
    let (lower, rest) := takeRun verbose isDigit s
    match (pastComparison? verbose rest).bind (mistake? verbose free) with
    | some (b, rest) =>
      match lower, pastComparison? verbose rest with
      | _ :: _, some rest => upperBound verbose b rest
      | _, _ => weightsCondition verbose free s
    | none => weightsCondition verbose free s

/-- refuses the conditions of a tolerance, where those given are still free -/
def checkConditions (verbose : Bool) (free : List Bounded) (s : Text) : Except Fault Unit :=
  match toleranceCondition verbose free s with
  | .error f => .error f
  | .ok none => .ok ()
  | .ok (some (b, rest)) =>
    match accept? verbose ',' rest with
    | some rest => if _ : b ∈ free then checkConditions verbose (free.erase b) rest else .error .tolerance
    | none => .error .tolerance
termination_by free.length
decreasing_by
  have := List.length_pos_of_mem ‹b ∈ free›
  rw [List.length_erase_of_mem ‹b ∈ free›]
  omega

/-- refuses a tolerance, read from behind its opening brace; text passes -/
def checkTolerance (verbose : Bool) (s : Text) : Except Fault Unit := checkConditions verbose Bounded.all s

end UriRouting.Regex
