/-
Matching with raised numbers. An expression whose groups have been raised, in a program where its references mean the raised
groups, leads a state to what the expression leads it to on its own, with what the groups have captured under the raised
numbers.

- `raised_outcomes`: the outcomes are the same, one by one and in the same order, but for the numbers.
-/
import UriRouting.Proofs.Regex.Alike
import UriRouting.Proofs.Regex.Enclosing

namespace UriRouting.Regex

/-- the same place in the same text, and the same texts captured under the raised numbers -/
structure Raised (k : ℕ) (s t : State) : Prop where
  before : t.before = s.before
  after : t.after = s.after
  text : ∀ n, t.captures.text? (n + k) = s.captures.text? n

/-- the second program is the surroundings of an expression of the first one, with its groups raised -/
structure RaisedIn (k : ℕ) (p q : Program) (e : Expr) : Prop where
  resolve : ∀ r ∈ e.references, r.resolve q.names = (r.resolve p.names).map (· + k)
  asciiOnly : q.asciiOnly = p.asciiOnly

variable {k : ℕ}

namespace Raised

variable {s t : State}

theorem room (h : Raised k s t) (d : Direction) : d.room t = d.room s := by
  cases d
  · exact congrArg List.length h.after
  · exact congrArg List.length h.before

theorem room_lt_iff {u v : State} (h : Raised k s t) (h' : Raised k u v) (d : Direction) :
    d.room v < d.room t ↔ d.room u < d.room s := by
  rw [h.room, h'.room]

theorem anchor (h : Raised k s t) (a : Anchor) (asciiOnly : Bool) : a.holds asciiOnly t = a.holds asciiOnly s := by
  cases a <;> simp only [Anchor.holds, h.before, h.after]

theorem recapture (h : Raised k s t) {cs cs' : Captures} (hc : ∀ n, cs'.text? (n + k) = cs.text? n) :
    Raised k { s with captures := cs } { t with captures := cs' } :=
  ⟨h.before, h.after, hc⟩

/-- the same text captured by a group, and by the raised one -/
theorem capture {u v : State} (h : Raised k s t) (h' : Raised k u v) (n : ℕ) (d : Direction) :
    Raised k (u.capture n d s) (v.capture (n + k) d t) := by
  have htaken : d.taken t v = d.taken s u := by cases d <;> simp only [Direction.taken, h.after, h'.after]
  apply h'.recapture
  intro m
  simp only [Captures.text?_set, htaken, h'.text, Nat.add_right_cancel_iff]

theorem read (h : Raised k s t) (d : Direction) : RelatedReads (Raised k) (d.read s) (d.read t) := by
  obtain ⟨before, after, place, cs, hp⟩ := s
  obtain ⟨before', after', place', cs', hp'⟩ := t
  obtain ⟨hb, ha, ht⟩ := h
  simp only at hb ha ht
  subst hb ha
  cases d with
  | forward =>
    cases after' with
    | nil => exact .none
    | cons c rest => exact .some ⟨rfl, rfl, rfl, ht⟩
  | backward =>
    cases before' with
    | nil => exact .none
    | cons c rest => exact .some ⟨rfl, rfl, rfl, ht⟩

theorem seen (h : Raised k s t) (negated : Bool) {o o' : Option State} (ho : Option.Rel (Raised k) o o') :
    Option.Rel (Raised k) (Program.seen negated s o) (Program.seen negated t o') := by
  cases ho with
  | none =>
    cases negated
    · exact .none
    · exact .some h
  | some hu =>
    cases negated
    · exact .some (h.recapture hu.text)
    · exact .none

variable {p q : Program}

theorem step (h : Raised k s t) (hascii : q.asciiOnly = p.asciiOnly) (test : CharTest) (d : Direction) :
    Option.Rel (Raised k) (p.step? test d s) (q.step? test d t) := by
  have hsame : q.step? test d t = p.step? test d t := by simp only [Program.step?, hascii]
  rw [hsame]
  exact related_step (h.read d)

theorem again (h : Raised k s t) (hascii : q.asciiOnly = p.asciiOnly) {r : Reference}
    (hr : r.resolve q.names = (r.resolve p.names).map (· + k)) (caseless : Bool) (d : Direction) :
    Option.Rel (Raised k) (p.again? r caseless d s) (q.again? r caseless d t) := by
  have haccepts : q.acceptsAgain = p.acceptsAgain := by
    funext caseless captured c
    rw [Program.acceptsAgain, Program.acceptsAgain, hascii]
  unfold Program.again?
  rw [hr, haccepts]
  cases r.resolve p.names with
  | none => exact .none
  | some n =>
    simp only [Option.map_some, Option.bind_some, h.text]
    cases s.captures.text? n with
    | none => exact .none
    | some x => exact related_readText (fun _ _ hst => hst.read d) _ _ h

end Raised

/-- **An expression with raised groups has the same outcomes**, with the captures under the raised numbers -/
theorem Program.raised_outcomes {p q : Program} {e : Expr} (he : RaisedIn k p q e) (d : Direction) {s t : State}
    (h : Raised k s t) : List.Forall₂ (Raised k) (p.outcomes e d s) (q.outcomes (e.raise k) d t) := by
  induction e generalizing d s t with
  | empty => exact .cons h .nil
  | char test => exact forall₂_toList (h.step he.asciiOnly test d)
  | anchor a =>
    simp only [Expr.raise, outcomes, he.asciiOnly, h.anchor a]
    split
    · exact .cons h .nil
    · exact .nil
  | cat a b iha ihb =>
    have ha : RaisedIn k p q a := ⟨fun r hr => he.resolve r (List.mem_append_left _ hr), he.asciiOnly⟩
    have hb : RaisedIn k p q b := ⟨fun r hr => he.resolve r (List.mem_append_right _ hr), he.asciiOnly⟩
    cases d with
    | forward => exact forall₂_flatMap (iha ha .forward h) fun _ _ _ hu => ihb hb .forward hu
    | backward => exact forall₂_flatMap (ihb hb .backward h) fun _ _ _ hu => iha ha .backward hu
  | alt a b iha ihb =>
    exact List.rel_append (iha ⟨fun r hr => he.resolve r (List.mem_append_left _ hr), he.asciiOnly⟩ d h)
      (ihb ⟨fun r hr => he.resolve r (List.mem_append_right _ hr), he.asciiOnly⟩ d h)
  | group n e ih => exact List.rel_map (R := Raised k) (fun {u v} hu => h.capture hu n d) (ih ⟨he.resolve, he.asciiOnly⟩ d h)
  | backref r caseless => exact forall₂_toList (h.again he.asciiOnly (he.resolve r (by simp [Expr.references])) caseless d)
  | repeated e r ih =>
    simp only [Expr.raise, outcomes]
    exact Repetition.related_iterate_of_body (fun _ _ _ _ hst huv => hst.room_lt_iff huv d)
      (fun s t hst => ih ⟨he.resolve, he.asciiOnly⟩ d hst) r h
  | atomic e ih => exact forall₂_toList (rel_head? (ih ⟨he.resolve, he.asciiOnly⟩ d h))
  | look behind negated e ih =>
    exact forall₂_toList (h.seen negated (rel_head? (ih ⟨he.resolve, he.asciiOnly⟩ (lookDirection behind) h)))

end UriRouting.Regex
