/-
States that differ in captures nobody looks at. Two states are alike for a list of watched groups when they are at the
same place in the same text and the watched groups have captured the same texts.

`alike_of_outcomes`: an expression that refers back to watched groups only takes states that are alike to outcomes that
are alike, one by one and in the same order. So whether it has any outcome, and where, does not depend on the rest.
-/
import UriRouting.Proofs.Regex.Follow
import UriRouting.Proofs.Regex.Related

namespace UriRouting.Regex

/-! ## Captures -/

theorem Captures.lookup_filter (cs : Captures) {n m : ℕ} (h : m ≠ n) :
    (cs.filter fun c => c.1 != n).lookup m = cs.lookup m := by
  induction cs with
  | nil => rfl
  | cons c cs ih =>
    obtain ⟨k, c⟩ := c
    by_cases hk : k = n
    · have hm : (m == n) = false := by simpa using h
      simp only [hk, bne_self_eq_false, Bool.false_eq_true, not_false_eq_true, List.filter_cons_of_neg, ih,
        List.lookup_cons, hm]
    · simp [List.lookup_cons, hk, ih]

/-- a group has captured what was captured for it last -/
theorem Captures.text?_set (cs : Captures) (n m : ℕ) (c : Capture) :
    (cs.set n c).text? m = if m = n then some c.text else cs.text? m := by
  by_cases h : m = n
  · simp [Captures.text?, Captures.set, h]
  · have hb : (m == n) = false := by simp [h]
    simp only [Captures.text?, Captures.set, List.lookup_cons, hb, h, if_false]
    rw [Captures.lookup_filter cs h]

/-! ## Alike states -/

/-- the same place in the same text, and the same texts captured by the watched groups -/
structure Alike (watched : List ℕ) (s t : State) : Prop where
  before : s.before = t.before
  after : s.after = t.after
  text : ∀ n ∈ watched, s.captures.text? n = t.captures.text? n

abbrev AlikeOption (watched : List ℕ) : Option State → Option State → Prop := Option.Rel (Alike watched)

abbrev AlikeList (watched : List ℕ) : List State → List State → Prop := List.Forall₂ (Alike watched)

namespace Alike

variable {watched : List ℕ} {s t : State}

theorem refl (watched : List ℕ) (s : State) : Alike watched s s := ⟨rfl, rfl, fun _ _ => rfl⟩

theorem place (h : Alike watched s t) : s.place = t.place := by
  rw [s.place_eq, t.place_eq, h.before]

theorem room (h : Alike watched s t) (d : Direction) : d.room s = d.room t := by
  cases d
  · exact congrArg List.length h.after
  · exact congrArg List.length h.before

theorem room_lt_iff {u v : State} (h : Alike watched s t) (h' : Alike watched u v) (d : Direction) :
    d.room v < d.room t ↔ d.room u < d.room s := by
  rw [h.room, h'.room]

theorem whole (h : Alike watched s t) : s.whole = t.whole := by
  rw [State.whole, State.whole, h.before, h.after]

theorem anchor (h : Alike watched s t) (a : Anchor) (asciiOnly : Bool) : a.holds asciiOnly s = a.holds asciiOnly t := by
  cases a <;> simp only [Anchor.holds, h.before, h.after]

/-- alike states stay alike when both take over alike captures -/
theorem recapture (h : Alike watched s t) {cs cs' : Captures} (hc : ∀ n ∈ watched, cs.text? n = cs'.text? n) :
    Alike watched { s with captures := cs } { t with captures := cs' } :=
  ⟨h.before, h.after, hc⟩

/-- the same group captured from places with the same text behind them -/
theorem capture (h : Alike watched s t) (n : ℕ) (d : Direction) {o o' : State}
    (ho : n ∈ watched → o.after = o'.after) : Alike watched (s.capture n d o) (t.capture n d o') := by
  apply h.recapture
  intro m hm
  rw [Captures.text?_set, Captures.text?_set, h.text m hm]
  by_cases hmn : m = n
  · have hto : d.taken o s = d.taken o' t := by cases d <;> simp only [Direction.taken, h.after, ho (hmn ▸ hm)]
    rw [hto]
  · simp only [hmn, if_false]

/-- the same character is read next, and leads to alike states -/
theorem read (h : Alike watched s t) (d : Direction) :
    RelatedReads (Alike watched) (d.read s) (d.read t) := by
  obtain ⟨before, after, place, cs, hp⟩ := s
  obtain ⟨before', after', place', cs', hp'⟩ := t
  obtain ⟨hb, ha, ht⟩ := h
  simp only at hb ha ht
  subst hb ha
  cases d with
  | forward =>
    cases after with
    | nil => exact .none
    | cons c rest => exact .some ⟨rfl, rfl, rfl, ht⟩
  | backward =>
    cases before with
    | nil => exact .none
    | cons c rest => exact .some ⟨rfl, rfl, rfl, ht⟩

theorem again (h : Alike watched s t) (p : Program) (r : Reference) (caseless : Bool) (d : Direction)
    (hr : ∀ n, r.resolve p.names = some n → n ∈ watched) :
    AlikeOption watched (p.again? r caseless d s) (p.again? r caseless d t) := by
  unfold Program.again?
  cases hn : r.resolve p.names with
  | none => exact .none
  | some n =>
    simp only [Option.bind_some, h.text n (hr n hn)]
    cases t.captures.text? n with
    | none => exact .none
    | some x => exact related_readText (fun _ _ hst => hst.read d) _ _ h

theorem seen (h : Alike watched s t) (negated : Bool) {o o' : Option State} (ho : AlikeOption watched o o') :
    AlikeOption watched (Program.seen negated s o) (Program.seen negated t o') := by
  cases ho with
  | none =>
    cases negated
    · exact .none
    · exact .some h
  | some hu =>
    cases negated
    · exact .some (h.recapture hu.text)
    · exact .none

end Alike

/-! ## Expressions -/

/-- **Alike states have alike outcomes**, for an expression that refers back to watched groups only -/
theorem Program.alike_of_outcomes {p : Program} {watched : List ℕ} (e : Expr) (he : e.Watched p.names watched)
    (d : Direction) {s t : State} (h : Alike watched s t) :
    AlikeList watched (p.outcomes e d s) (p.outcomes e d t) := by
  induction e generalizing d s t with
  | empty => exact .cons h .nil
  | char test => exact forall₂_toList (related_step (h.read d))
  | anchor a =>
    simp only [outcomes, h.anchor a]
    split
    · exact .cons h .nil
    · exact .nil
  | cat a b iha ihb =>
    have ha : a.Watched p.names watched := fun r hr => he r (List.mem_append_left _ hr)
    have hb : b.Watched p.names watched := fun r hr => he r (List.mem_append_right _ hr)
    cases d with
    | forward => exact forall₂_flatMap (iha ha .forward h) fun _ _ _ hu => ihb hb .forward hu
    | backward => exact forall₂_flatMap (ihb hb .backward h) fun _ _ _ hu => iha ha .backward hu
  | alt a b iha ihb =>
    exact List.rel_append (iha (fun r hr => he r (List.mem_append_left _ hr)) d h)
      (ihb (fun r hr => he r (List.mem_append_right _ hr)) d h)
  | group n e ih =>
    refine List.rel_map (R := Alike watched) (fun {u v} hu => ?_) (ih he d h)
    exact Alike.capture hu n d fun _ => h.after
  | backref r caseless => exact forall₂_toList (h.again p r caseless d (he r (by simp [Expr.references])))
  | repeated e r ih =>
    unfold outcomes
    exact Repetition.related_iterate_of_body (fun _ _ _ _ hst huv => hst.room_lt_iff huv d)
      (fun s t hst => ih he d hst) r h
  | atomic e ih => exact forall₂_toList (rel_head? (ih he d h))
  | look behind negated e ih => exact forall₂_toList (h.seen negated (rel_head? (ih he (lookDirection behind) h)))

end UriRouting.Regex
