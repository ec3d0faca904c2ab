/-
How much text an expression reads: `Expr.least` characters at least, and `Expr.most` at most, where there is a limit. What a
look reads does not count, for it keeps its place, and nothing is said of what a group has captured.

- `room_add_least_le`: every outcome is as much further on, in whichever direction the text is read.
- `room_le_add_most`: and no more than so much.
-/
import UriRouting.Proofs.Regex.Progress

namespace UriRouting.Regex

/-- the fewest characters that the expression reads -/
def Expr.least : Expr → ℕ
  | empty | anchor _ | backref _ _ | look _ _ _ => 0
  | char _ => 1
  | cat a b => a.least + b.least
  | alt a b => min a.least b.least
  | group _ e | atomic e => e.least
  | repeated e r => r.least * e.least

/-- the most characters that the expression reads, unless there is no limit -/
def Expr.most : Expr → Option ℕ
  | empty | anchor _ | look _ _ _ => some 0
  | char _ => some 1
  | backref _ _ => none
  | cat a b => Option.map₂ (· + ·) a.most b.most
  | alt a b => Option.map₂ max a.most b.most
  | group _ e | atomic e => e.most
  | repeated e r =>
    match e.most, r.most with
    | some 0, _ => some 0
    | some m, some times => some (max r.least times * m)
    | _, _ => none

/-! ## Repetitions -/

namespace Repetition

variable {room : State → ℕ} {body : State → List State} {k : ℕ}

theorem room_add_le_of_times (hbody : ∀ s, ∀ t ∈ body s, room t + k ≤ room s) (n : ℕ) (s : State) :
    ∀ t ∈ times body n s, room t + n * k ≤ room s := by
  induction n generalizing s with
  | zero =>
    intro t ht
    rw [List.mem_singleton.1 ht, Nat.zero_mul, Nat.add_zero]
  | succ n ih =>
    intro t ht
    obtain ⟨u, hu, ht⟩ := List.mem_flatMap.1 ht
    have h1 := hbody s u hu
    have h2 := ih u t ht
    rw [Nat.succ_mul]
    omega

theorem room_le_add_of_times (hbody : ∀ s, ∀ t ∈ body s, room s ≤ room t + k) (n : ℕ) (s : State) :
    ∀ t ∈ times body n s, room s ≤ room t + n * k := by
  induction n generalizing s with
  | zero =>
    intro t ht
    rw [List.mem_singleton.1 ht, Nat.zero_mul, Nat.add_zero]
  | succ n ih =>
    intro t ht
    obtain ⟨u, hu, ht⟩ := List.mem_flatMap.1 ht
    have h1 := hbody s u hu
    have h2 := ih u t ht
    rw [Nat.succ_mul]
    omega

theorem room_le_add_of_upTo (hbody : ∀ s, ∀ t ∈ body s, room s ≤ room t + k) (lazy : Bool) (n : ℕ) (s : State) :
    ∀ t ∈ upTo lazy body n s, room s ≤ room t + n * k := by
  induction n generalizing s with
  | zero =>
    intro t ht
    rw [List.mem_singleton.1 ht, Nat.zero_mul, Nat.add_zero]
  | succ n ih =>
    intro t ht
    simp only [upTo, mem_order, List.mem_singleton] at ht
    rw [Nat.succ_mul]
    rcases ht with ht | rfl
    · obtain ⟨u, hu, ht⟩ := List.mem_flatMap.1 ht
      have h1 := hbody s u hu
      have h2 := ih u t ht
      omega
    · omega

/-- the iterations that must be made read so much, and the others give nothing back -/
theorem room_add_le_of_iterate (hbody : ∀ s, ∀ t ∈ body s, room t + k ≤ room s) (r : Repetition) (s : State) :
    ∀ t ∈ r.iterate room body s, room t + r.least * k ≤ room s := by
  have hless : ∀ s, ∀ t ∈ body s, room t ≤ room s := fun s t ht => (Nat.le_add_right _ k).trans (hbody s t ht)
  have htrans : ∀ {s t u : State}, room t ≤ room s → room u ≤ room t → room u ≤ room s := fun h₁ h₂ => h₂.trans h₁
  intro t ht
  cases hm : r.most with
  | some most =>
    rw [iterate_some hm] at ht
    obtain ⟨u, hu, ht⟩ := List.mem_flatMap.1 ht
    have h1 := room_add_le_of_times hbody r.least s u hu
    have h2 := rel_of_mem_upTo (R := fun s t => room t ≤ room s) (fun _ => le_rfl) htrans hless _ _ u t ht
    omega
  | none =>
    rw [iterate_none hm] at ht
    obtain ⟨u, hu, ht⟩ := List.mem_flatMap.1 ht
    have h1 := room_add_le_of_times hbody r.least s u hu
    have h2 := rel_of_mem_unlimited (R := fun s t => room t ≤ room s) (fun _ => le_rfl) htrans hless _ _ u t ht
    omega

theorem room_le_add_of_iterate (hbody : ∀ s, ∀ t ∈ body s, room s ≤ room t + k) {r : Repetition} {most : ℕ}
    (hm : r.most = some most) (s : State) :
    ∀ t ∈ r.iterate room body s, room s ≤ room t + max r.least most * k := by
  intro t ht
  rw [iterate_some hm] at ht
  obtain ⟨u, hu, ht⟩ := List.mem_flatMap.1 ht
  have h1 := room_le_add_of_times hbody r.least s u hu
  have h2 := room_le_add_of_upTo hbody _ _ u t ht
  have hsum : max r.least most = r.least + (most - r.least) := by omega
  rw [hsum, Nat.add_mul]
  omega

end Repetition

/-! ## Expressions -/

namespace Program

variable {p : Program}

theorem room_of_step {test : CharTest} {d : Direction} {s t : State} (h : p.step? test d s = some t) :
    d.room s = d.room t + 1 := by
  unfold step? at h
  split at h
  · rename_i hr
    split at h
    · rw [← Option.some.inj h]
      exact Direction.room_of_read hr
    · simp at h
  · simp at h

theorem room_of_seen {negated : Bool} {d : Direction} {s t : State} {o : Option State}
    (h : seen negated s o = some t) : d.room t = d.room s := by
  cases o <;> cases negated <;> simp only [seen, Bool.false_eq_true, if_true, if_false, Option.some.injEq,
    reduceCtorEq] at h <;> subst h <;> cases d <;> rfl

theorem room_capture (d : Direction) (n : ℕ) (s t : State) : d.room (t.capture n d s) = d.room t := by
  cases d <;> rfl

theorem room_le_of_onward {d : Direction} {s t : State} (h : Onward d s t) : d.room t ≤ d.room s := by
  rcases h.reaches with h | h
  · exact h.le
  · exact h.1.le

/-- **An expression reads its least number of characters** -/
theorem room_add_least_le (e : Expr) (d : Direction) (s : State) :
    ∀ t ∈ p.outcomes e d s, d.room t + e.least ≤ d.room s := by
  induction e generalizing d s with
  | empty | anchor _ | backref _ _ | look _ _ _ =>
    intro t ht
    exact room_le_of_onward (onward_of_mem_outcomes _ d s t ht)
  | char test =>
    intro t ht
    simp only [outcomes, Option.mem_toList] at ht
    exact (room_of_step ht).ge
  | cat a b iha ihb =>
    intro t ht
    rw [Expr.least]
    cases d with
    | forward =>
      obtain ⟨u, hu, ht⟩ := List.mem_flatMap.1 ht
      have h1 := iha _ s u hu
      have h2 := ihb _ u t ht
      omega
    | backward =>
      obtain ⟨u, hu, ht⟩ := List.mem_flatMap.1 ht
      have h1 := ihb _ s u hu
      have h2 := iha _ u t ht
      omega
  | alt a b iha ihb =>
    intro t ht
    rw [Expr.least]
    rcases List.mem_append.1 ht with ht | ht
    · have := iha d s t ht
      omega
    · have := ihb d s t ht
      omega
  | group n e ih =>
    intro t ht
    obtain ⟨u, hu, rfl⟩ := List.mem_map.1 ht
    rw [room_capture]
    exact ih d s u hu
  | repeated e r ih =>
    intro t ht
    unfold outcomes at ht
    exact Repetition.room_add_le_of_iterate (ih d) r s t ht
  | atomic e ih =>
    intro t ht
    simp only [outcomes, Option.mem_toList] at ht
    exact ih d s t (List.mem_of_head? ht)

/-- **An expression reads no more than its most** -/
theorem room_le_add_most (e : Expr) {m : ℕ} (hm : e.most = some m) (d : Direction) (s : State) :
    ∀ t ∈ p.outcomes e d s, d.room s ≤ d.room t + m := by
  induction e generalizing m d s with
  | empty =>
    intro t ht
    rw [List.mem_singleton.1 ht]
    exact Nat.le_add_right _ _
  | char test =>
    intro t ht
    obtain rfl := Option.some.inj hm
    simp only [outcomes, Option.mem_toList] at ht
    exact (room_of_step ht).le
  | anchor a =>
    intro t ht
    unfold outcomes at ht
    split at ht
    · rw [List.mem_singleton.1 ht]
      exact Nat.le_add_right _ _
    · simp at ht
  | cat a b iha ihb =>
    intro t ht
    obtain ⟨j, k, hj, hk, rfl⟩ := Option.map₂_eq_some_iff.1 hm
    cases d with
    | forward =>
      obtain ⟨u, hu, ht⟩ := List.mem_flatMap.1 ht
      have h1 := iha hj _ s u hu
      have h2 := ihb hk _ u t ht
      omega
    | backward =>
      obtain ⟨u, hu, ht⟩ := List.mem_flatMap.1 ht
      have h1 := ihb hk _ s u hu
      have h2 := iha hj _ u t ht
      omega
  | alt a b iha ihb =>
    intro t ht
    obtain ⟨j, k, hj, hk, rfl⟩ := Option.map₂_eq_some_iff.1 hm
    rcases List.mem_append.1 ht with ht | ht
    · have := iha hj d s t ht
      omega
    · have := ihb hk d s t ht
      omega
  | group n e ih =>
    intro t ht
    obtain ⟨u, hu, rfl⟩ := List.mem_map.1 ht
    rw [room_capture]
    exact ih hm d s u hu
  | backref r caseless => cases hm
  | repeated e r ih =>
    intro t ht
    unfold outcomes at ht
    rw [Expr.most] at hm
    split at hm
    · rename_i hzero
      obtain rfl := Option.some.inj hm
      exact Repetition.rel_of_mem_iterate (R := fun s t => d.room s ≤ d.room t) (fun _ => le_rfl)
        (fun h₁ h₂ => h₁.trans h₂) (ih hzero d) r d.room s t ht
    · rename_i he hr
      obtain rfl := Option.some.inj hm
      exact Repetition.room_le_add_of_iterate (ih he d) hr s t ht
    · cases hm
  | atomic e ih =>
    intro t ht
    simp only [outcomes, Option.mem_toList] at ht
    exact ih hm d s t (List.mem_of_head? ht)
  | look behind negated e _ =>
    intro t ht
    simp only [outcomes, Option.mem_toList] at ht
    rw [room_of_seen ht]
    exact Nat.le_add_right _ _

/-- read forwards, the place moves on by what is read at least -/
theorem place_add_least_le {e : Expr} {s t : State} (ht : t ∈ p.outcomes e .forward s) :
    s.place + e.least ≤ t.place := by
  have hroom := room_add_least_le e .forward s t ht
  have hwhole := congrArg List.length (onward_of_mem_outcomes e .forward s t ht).whole
  rw [State.length_whole, State.length_whole] at hwhole
  simp only [Direction.room] at hroom
  omega

/-- read backwards, the place moves back by no more than what is read at most -/
theorem place_le_add_most {e : Expr} {m : ℕ} (hm : e.most = some m) {s t : State} (ht : t ∈ p.outcomes e .backward s) :
    s.place ≤ t.place + m := by
  rw [s.place_eq, t.place_eq]
  exact room_le_add_most e hm .backward s t ht

end Program

end UriRouting.Regex
