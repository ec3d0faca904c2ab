/-
An expression reads on and leaves the text as it is. `Onward d s t`: the state t is further on than s in the direction
d, or at the same place, and both stand in the same text.

`onward_of_mem_outcomes`: every outcome of an expression is onward of the state it started from. Between such states
the room that is left and the place tell the same story (`Onward.stayed_iff`), so "the iteration has taken no text" can
be asked of either.
-/
import Mathlib.Tactic
import UriRouting.Regex.Attempt

namespace UriRouting.Regex

def State.whole (s : State) : Text := s.before.reverse ++ s.after

theorem State.length_whole (s : State) : s.whole.length = s.place + s.after.length := by
  rw [State.whole, List.length_append, List.length_reverse, s.place_eq]

/-- two places in one text with as much before them are one place -/
theorem State.sides_eq {s t : State} (hw : s.whole = t.whole) (hp : s.place = t.place) :
    s.before = t.before ∧ s.after = t.after := by
  have hl : s.before.reverse.length = t.before.reverse.length := by
    rw [List.length_reverse, List.length_reverse, ← s.place_eq, ← t.place_eq, hp]
  obtain ⟨hb, ha⟩ := List.append_inj hw hl
  exact ⟨List.reverse_injective hb, ha⟩

/-- the second state is reached from the first one, in the same text -/
structure Onward (d : Direction) (s t : State) : Prop where
  reaches : d.Reaches s t
  whole : t.whole = s.whole

namespace Onward

theorem refl (d : Direction) (s : State) : Onward d s s := ⟨.refl d s, rfl⟩

theorem trans {d : Direction} {s t u : State} (h₁ : Onward d s t) (h₂ : Onward d t u) : Onward d s u :=
  ⟨h₁.reaches.trans h₂.reaches, h₂.whole.trans h₁.whole⟩

/-- the place has not changed exactly when as much room is left -/
theorem stayed_iff {d : Direction} {s t : State} (h : Onward d s t) : t.place = s.place ↔ ¬ d.room t < d.room s := by
  have hl : t.place + t.after.length = s.place + s.after.length := by
    rw [← t.length_whole, ← s.length_whole, h.whole]
  have hs := s.place_eq
  have ht := t.place_eq
  have hr := h.reaches
  cases d <;> simp only [Direction.Reaches, Direction.room] at * <;> omega

/-- captures do not matter -/
theorem recapture {d : Direction} {s t : State} (h : Onward d s t) (cs : Captures) :
    Onward d s { t with captures := cs } :=
  ⟨by cases d <;> exact h.reaches, h.whole⟩

end Onward

theorem onward_of_read {d : Direction} {s t : State} {c : Char} (h : d.read s = some (c, t)) : Onward d s t := by
  refine ⟨.inl (Direction.room_lt_of_read h), ?_⟩
  obtain ⟨before, after, place, cs, hp⟩ := s
  cases d with
  | forward =>
    cases after with
    | nil => simp [Direction.read] at h
    | cons x rest =>
      simp only [Direction.read, Option.some.injEq, Prod.mk.injEq] at h
      rw [← h.2]
      simp [State.whole]
  | backward =>
    cases before with
    | nil => simp [Direction.read] at h
    | cons x rest =>
      simp only [Direction.read, Option.some.injEq, Prod.mk.injEq] at h
      rw [← h.2]
      simp [State.whole]

theorem onward_of_readText {d : Direction} {accepts : Char → Char → Bool} {x : Text} {s t : State}
    (h : d.readText accepts x s = some t) : Onward d s t := by
  induction x generalizing s with
  | nil =>
    simp only [Direction.readText, Option.some.injEq] at h
    exact h ▸ .refl d s
  | cons c x ih =>
    unfold Direction.readText at h
    split at h
    · rename_i hr
      split at h
      · exact (onward_of_read hr).trans (ih h)
      · simp at h
    · simp at h

/-! ## Repetitions -/

namespace Repetition

variable {R : State → State → Prop} {body : State → List State}

theorem rel_of_mem_times (refl : ∀ s, R s s) (trans : ∀ {s t u}, R s t → R t u → R s u)
    (hbody : ∀ s, ∀ t ∈ body s, R s t) (n : ℕ) (s : State) : ∀ t ∈ times body n s, R s t := by
  induction n generalizing s with
  | zero =>
    intro t ht
    simp only [times, List.mem_singleton] at ht
    exact ht ▸ refl s
  | succ n ih =>
    intro t ht
    obtain ⟨u, hu, ht⟩ := List.mem_flatMap.1 ht
    exact trans (hbody s u hu) (ih u t ht)

theorem rel_of_mem_upTo (refl : ∀ s, R s s) (trans : ∀ {s t u}, R s t → R t u → R s u)
    (hbody : ∀ s, ∀ t ∈ body s, R s t) (lazy : Bool) (n : ℕ) (s : State) : ∀ t ∈ upTo lazy body n s, R s t := by
  induction n generalizing s with
  | zero =>
    intro t ht
    simp only [upTo, List.mem_singleton] at ht
    exact ht ▸ refl s
  | succ n ih =>
    intro t ht
    simp only [upTo, mem_order, List.mem_singleton] at ht
    rcases ht with ht | rfl
    · obtain ⟨u, hu, ht⟩ := List.mem_flatMap.1 ht
      exact trans (hbody s u hu) (ih u t ht)
    · exact refl t

theorem rel_of_mem_unlimited (refl : ∀ s, R s s) (trans : ∀ {s t u}, R s t → R t u → R s u)
    (hbody : ∀ s, ∀ t ∈ body s, R s t) (lazy : Bool) (room : State → ℕ) (s : State) :
    ∀ t ∈ unlimited lazy room body s, R s t := by
  fun_induction unlimited lazy room body s with
  | case1 s ih =>
    intro t ht
    simp only [mem_order, List.mem_singleton] at ht
    rcases ht with ht | rfl
    · obtain ⟨u, hu, ht⟩ := List.mem_flatMap.1 ht
      split at ht
      · rename_i hlt
        exact trans (hbody s u hu) (ih u hlt t ht)
      · rw [List.mem_singleton.1 ht]
        exact hbody s u hu
    · exact refl t

theorem iterate_some {r : Repetition} {most : ℕ} (h : r.most = some most) (room : State → ℕ) (s : State) :
    r.iterate room body s = (times body r.least s).flatMap (upTo r.lazy body (most - r.least)) := by
  rw [iterate, h]

theorem iterate_none {r : Repetition} (h : r.most = none) (room : State → ℕ) (s : State) :
    r.iterate room body s = (times body r.least s).flatMap (unlimited r.lazy room body) := by
  rw [iterate, h]

/-- what passes from a state to every outcome of one iteration passes to every outcome of the repetition -/
theorem rel_of_mem_iterate (refl : ∀ s, R s s) (trans : ∀ {s t u}, R s t → R t u → R s u)
    (hbody : ∀ s, ∀ t ∈ body s, R s t) (r : Repetition) (room : State → ℕ) (s : State) :
    ∀ t ∈ r.iterate room body s, R s t := by
  intro t ht
  cases hm : r.most with
  | some most =>
    rw [iterate_some hm] at ht
    obtain ⟨u, hu, ht⟩ := List.mem_flatMap.1 ht
    exact trans (rel_of_mem_times refl trans hbody r.least s u hu) (rel_of_mem_upTo refl trans hbody _ _ u t ht)
  | none =>
    rw [iterate_none hm] at ht
    obtain ⟨u, hu, ht⟩ := List.mem_flatMap.1 ht
    exact trans (rel_of_mem_times refl trans hbody r.least s u hu) (rel_of_mem_unlimited refl trans hbody _ _ u t ht)

end Repetition

/-! ## Expressions -/

namespace Program

variable {p : Program}

theorem onward_of_step {test : CharTest} {d : Direction} {s t : State} (h : p.step? test d s = some t) :
    Onward d s t := by
  unfold step? at h
  split at h
  · rename_i hr
    split at h
    · rw [← Option.some.inj h]
      exact onward_of_read hr
    · simp at h
  · simp at h

theorem onward_of_again {r : Reference} {caseless : Bool} {d : Direction} {s t : State}
    (h : p.again? r caseless d s = some t) : Onward d s t := by
  obtain ⟨x, _, hx⟩ := Option.bind_eq_some_iff.1 h
  exact onward_of_readText hx

/-- a look keeps the place, whatever it has seen -/
theorem onward_of_seen {negated : Bool} {d : Direction} {s t : State} {o : Option State}
    (h : seen negated s o = some t) : Onward d s t := by
  refine ⟨reaches_of_seen h, ?_⟩
  cases o <;> cases negated <;> simp only [seen, Bool.false_eq_true, if_true, if_false, Option.some.injEq,
    reduceCtorEq] at h <;> subst h <;> rfl

/-- **Outcomes are onward**: an expression reads on in its direction and leaves the text as it is -/
theorem onward_of_mem_outcomes (e : Expr) (d : Direction) (s : State) : ∀ t ∈ p.outcomes e d s, Onward d s t := by
  induction e generalizing d s with
  | empty =>
    intro t ht
    simp only [outcomes, List.mem_singleton] at ht
    exact ht ▸ .refl d s
  | char test =>
    intro t ht
    simp only [outcomes, Option.mem_toList] at ht
    exact onward_of_step ht
  | anchor a =>
    intro t ht
    unfold outcomes at ht
    split at ht
    · rw [List.mem_singleton.1 ht]
      exact .refl d s
    · simp at ht
  | cat a b iha ihb =>
    intro t ht
    cases d with
    | forward =>
      simp only [outcomes, List.mem_flatMap] at ht
      obtain ⟨u, hu, ht⟩ := ht
      exact (iha _ s u hu).trans (ihb _ u t ht)
    | backward =>
      simp only [outcomes, List.mem_flatMap] at ht
      obtain ⟨u, hu, ht⟩ := ht
      exact (ihb _ s u hu).trans (iha _ u t ht)
  | alt a b iha ihb =>
    intro t ht
    simp only [outcomes, List.mem_append] at ht
    rcases ht with ht | ht
    · exact iha d s t ht
    · exact ihb d s t ht
  | group n e ih =>
    intro t ht
    simp only [outcomes, List.mem_map] at ht
    obtain ⟨u, hu, rfl⟩ := ht
    exact (ih d s u hu).recapture _
  | backref r caseless =>
    intro t ht
    simp only [outcomes, Option.mem_toList] at ht
    exact onward_of_again ht
  | repeated e r ih =>
    intro t ht
    unfold outcomes at ht
    exact Repetition.rel_of_mem_iterate (Onward.refl d) Onward.trans (ih d) r d.room s t ht
  | atomic e ih =>
    intro t ht
    simp only [outcomes, Option.mem_toList] at ht
    exact ih d s t (List.mem_of_head? ht)
  | look behind negated e ih =>
    intro t ht
    simp only [outcomes, Option.mem_toList] at ht
    exact onward_of_seen ht

end Program

end UriRouting.Regex
