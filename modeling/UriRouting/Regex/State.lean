/-
Places in a text. A state is a place with the captures made on the way to it; a direction says which way the text is
read from there. Behind a look-behind the text is read backwards. A capture is held by its two ends, so that making one
costs nothing however long it is.
-/
import UriRouting.Regex.Basic

namespace UriRouting.Regex

/-- a stretch of the text: what stands to the right of its start, and to the right of its end -/
structure Capture where
  fromStart : Text
  fromEnd : Text
deriving DecidableEq, Repr

def Capture.text (c : Capture) : Text := c.fromStart.take (c.fromStart.length - c.fromEnd.length)

/-- what has been captured, by group number, the latest for each -/
abbrev Captures := List (Nat × Capture)

def Captures.set (cs : Captures) (n : Nat) (c : Capture) : Captures := (n, c) :: cs.filter fun c => c.1 != n

def Captures.text? (cs : Captures) (n : Nat) : Option Text := (cs.lookup n).map Capture.text

/-- a place in the text, and what has been captured -/
structure State where
  /-- the text to the left, nearest character first -/
  before : Text
  /-- the text to the right -/
  after : Text
  /-- how many characters are to the left -/
  place : Nat
  captures : Captures
  place_eq : place = before.length
deriving DecidableEq, Repr

def State.start (t : Text) : State := ⟨[], t, 0, [], rfl⟩

inductive Direction where
  | forward
  | backward
deriving DecidableEq, Repr

namespace Direction

/-- the next character, and the state past it -/
def read : Direction → State → Option (Char × State)
  | forward, ⟨before, c :: after, place, cs, h⟩ => some (c, ⟨c :: before, after, place + 1, cs, by simp [h]⟩)
  | backward, ⟨c :: before, after, place, cs, h⟩ => some (c, ⟨before, c :: after, place - 1, cs, by simp [h]⟩)
  | _, _ => none

def room : Direction → State → Nat
  | forward, s => s.after.length
  | backward, s => s.before.length

/-- the text read between two states -/
def taken : Direction → State → State → Capture
  | forward, s, t => ⟨s.after, t.after⟩
  | backward, s, t => ⟨t.after, s.after⟩

/-- read characters that the given ones, in the order met, accept one by one -/
def readText (d : Direction) (accepts : Char → Char → Bool) : Text → State → Option State
  | [], s => some s
  | x :: rest, s =>
    match d.read s with
    | some (c, t) => if accepts x c then readText d accepts rest t else none
    | none => none

/-- a captured text in the order in which it is met again -/
def arrange : Direction → Text → Text
  | forward, t => t
  | backward, t => t.reverse

end Direction

/-- the state with the text read since another one captured by a group -/
def State.capture (s : State) (n : Nat) (d : Direction) (opened : State) : State :=
  { s with captures := s.captures.set n (d.taken opened s) }

/-- does the text start with a word character? -/
def touchesWord (asciiOnly : Bool) : Text → Bool
  | [] => false
  | c :: _ => Property.word.holdsIn asciiOnly c.toNat

def Anchor.holds (asciiOnly : Bool) : Anchor → State → Bool
  | textStart, s => s.before.isEmpty
  | lineStart, s => s.before.head?.all (· == '\n')
  | textEnd, s => s.after.isEmpty
  | finalLineEnd, s => s.after.isEmpty || s.after == ['\n']
  | lineEnd, s => s.after.head?.all (· == '\n')
  | wordStart, s => !touchesWord asciiOnly s.before && touchesWord asciiOnly s.after
  | wordEnd, s => touchesWord asciiOnly s.before && !touchesWord asciiOnly s.after
  | wordBoundary, s => touchesWord asciiOnly s.before != touchesWord asciiOnly s.after
  | noWordBoundary, s => touchesWord asciiOnly s.before == touchesWord asciiOnly s.after

end UriRouting.Regex
