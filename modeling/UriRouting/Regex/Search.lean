/-
Searching for a full match: the first attempt that gets from the start of the text to its end. What an attempt can lead
to depends on its tasks, on its place, and on the captures that back-references look at; where a group was opened
matters only if one looks at it, and of the start of an iteration only whether it has been left. That makes the key by
which the search knows an attempt that has failed.
-/
import UriRouting.Regex.Attempt

namespace UriRouting.Regex

/-- what is known of a task by its key -/
inductive TaskKey where
  | expr (e : Expr)
  /-- the place where the group was opened, if it is looked at -/
  | close (group : Nat) (opened : Option Nat)
  /-- has the iteration stayed where it began? -/
  | again (body : Expr) (lazy stayed : Bool)
deriving DecidableEq, Hashable

/-- what is known of an attempt by its key -/
structure Key where
  tasks : List TaskKey
  place : Nat
  captures : List (Option Text)
deriving DecidableEq, Hashable

def Task.key (watched : List Nat) (place : Nat) : Task → TaskKey
  | expr e => .expr e
  | close n opened => .close n (if watched.contains n then some opened.place else none)
  | again e lazy start => .again e lazy (place == start)

def Attempt.key (watched : List Nat) (a : Attempt) : Key :=
  ⟨a.tasks.map (Task.key watched a.state.place), a.state.place, watched.map a.state.captures.text?⟩

namespace Program

/-- the groups that back-references look at -/
def watched (p : Program) : List Nat := p.root.references.filterMap fun r => r.resolve p.names

/-- the attempts as a tree; those without tasks are its goals -/
def attempts (p : Program) (probe : Probe) (d : Direction) : Backtrack Attempt where
  isGoal a := a.tasks.isEmpty
  next := Attempt.next p probe d
  rank := Attempt.rank d
  rank_lt _ _ h := Attempt.rank_lt_of_mem_next h

def perform (p : Program) (probe : Probe) (d : Direction) (tasks : List Task) (s : State) :
    Option { t : State // d.Reaches s t } :=
  match h : (p.attempts probe d).search (Attempt.key p.watched) ⟨tasks, s⟩ with
  | none => none
  | some a => some ⟨a.state, (p.attempts probe d).holds_of_search
      (fun _ hs _ ht => Direction.Reaches.trans hs (Attempt.reaches_of_mem_next ht))
      (show d.Reaches s (Attempt.mk tasks s).state from .refl d s) h⟩

/-- the preferred outcome of expressions in which atomic groups and looks are nested less deep than given -/
def probe (p : Program) : Nat → Probe
  | 0 => fun _ _ _ => none
  | depth + 1 => fun d e s => p.perform (p.probe depth) d [.expr e] s

/-- the captures of the first way to match the whole text -/
def fullMatch (p : Program) (text : Text) : Option Captures :=
  (p.perform (p.probe p.root.depth) .forward [.expr p.root, .expr (.anchor .textEnd)] (.start text)).map
    (·.val.captures)

end Program

end UriRouting.Regex
