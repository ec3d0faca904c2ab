/-
The outcomes of an expression: every state in which it can leave the text, the preferred one first. The left branch
comes before the right one, one more iteration before none, or the reverse for a lazy repetition.

A repetition with a least number of iterations makes these first, whether or not they take text; then as many as it may.
Without an upper limit, an iteration beyond the least number that takes no text is the last one.
-/
import UriRouting.Regex.State

namespace UriRouting.Regex

namespace Repetition

/-- what one more iteration leads to and what ending here leads to, the preferred first -/
def order {α : Type} (lazy : Bool) (again stop : List α) : List α := if lazy then stop ++ again else again ++ stop

theorem mem_order {α : Type} {lazy : Bool} {again stop : List α} {x : α} :
    x ∈ order lazy again stop ↔ x ∈ again ∨ x ∈ stop := by
  cases lazy <;> simp [order, or_comm]

def times (body : State → List State) : Nat → State → List State
  | 0, s => [s]
  | n + 1, s => (body s).flatMap (times body n)

def upTo (lazy : Bool) (body : State → List State) : Nat → State → List State
  | 0, s => [s]
  | n + 1, s => order lazy ((body s).flatMap (upTo lazy body n)) [s]

/-- any number of iterations, `room` being what is left to read -/
def unlimited (lazy : Bool) (room : State → Nat) (body : State → List State) (s : State) : List State :=
  order lazy ((body s).flatMap fun t => if room t < room s then unlimited lazy room body t else [t]) [s]
termination_by room s

def iterate (r : Repetition) (room : State → Nat) (body : State → List State) (s : State) : List State :=
  (times body r.least s).flatMap
    (match r.most with
    | some most => upTo r.lazy body (most - r.least)
    | none => unlimited r.lazy room body)

end Repetition

namespace Program

/-- the characters that back-references accept for a captured one -/
def acceptsAgain (p : Program) (caseless : Bool) (captured c : Char) : Bool :=
  isVariant p.asciiOnly caseless c.toNat captured.toNat

/-- the state past what a group captured, met again -/
def again? (p : Program) (r : Reference) (caseless : Bool) (d : Direction) (s : State) : Option State :=
  ((r.resolve p.names).bind s.captures.text?).bind fun t => d.readText (p.acceptsAgain caseless) (d.arrange t) s

/-- the state past one character that the test accepts -/
def step? (p : Program) (test : CharTest) (d : Direction) (s : State) : Option State :=
  match d.read s with
  | some (c, t) => if test.accepts p.asciiOnly c then some t else none
  | none => none

def lookDirection (behind : Bool) : Direction := if behind then .backward else .forward

/-- what a look leads to, given the preferred outcome of its body: it keeps the place and takes over the captures -/
def seen (negated : Bool) (s : State) : Option State → Option State
  | some t => if negated then none else some { s with captures := t.captures }
  | none => if negated then some s else none

/-- the states in which the expression can leave the text, the preferred one first -/
def outcomes (p : Program) : Expr → Direction → State → List State
  | .empty, _, s => [s]
  | .char test, d, s => (p.step? test d s).toList
  | .anchor a, _, s => if a.holds p.asciiOnly s then [s] else []
  | .cat a b, .forward, s => (p.outcomes a .forward s).flatMap (p.outcomes b .forward)
  | .cat a b, .backward, s => (p.outcomes b .backward s).flatMap (p.outcomes a .backward)
  | .alt a b, d, s => p.outcomes a d s ++ p.outcomes b d s
  | .group n e, d, s => (p.outcomes e d s).map fun t => t.capture n d s
  | .backref r caseless, d, s => (p.again? r caseless d s).toList
  | .repeated e r, d, s => r.iterate d.room (p.outcomes e d) s
  | .atomic e, d, s => (p.outcomes e d s).head?.toList
  | .look behind negated e, _, s => (seen negated s (p.outcomes e (lookDirection behind) s).head?).toList

end Program

end UriRouting.Regex
