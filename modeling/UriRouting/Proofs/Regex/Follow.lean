/-
What the tasks of an attempt lead to. The outcomes of a task are those of the expression it stands for; the outcomes of
several tasks are those of the first, each followed by the rest (`Program.follow`).

`flatMap_next`: what an attempt leads to is what the attempts it becomes lead to, in order. A probe enters here only
through the preferred outcome of atomic groups and looks, so it has to be exact for what is nested in them (`Exact`).

`fits_of_mem_next`: the invariant of the walk. All tasks are about parts of the expression, groups were opened in the
text at hand, and no iteration began further on than the place where the attempt stands.
-/
import UriRouting.Proofs.Regex.Progress
import UriRouting.Regex.Search

namespace UriRouting.Regex

/-- the states in which a task can be done, the preferred one first -/
def Task.outcomes (p : Program) (d : Direction) : Task → State → List State
  | expr e, s => p.outcomes e d s
  | close n opened, s => [s.capture n d opened]
  | again e lazy start, s => if s.place = start then [s] else Repetition.unlimited lazy d.room (p.outcomes e d) s

/-- the states in which the tasks can all be done, one after the other -/
def Program.follow (p : Program) (d : Direction) : List Task → State → List State
  | [], s => [s]
  | t :: rest, s => (t.outcomes p d s).flatMap (p.follow d rest)

/-- the groups that the expression refers back to are watched -/
def Expr.Watched (names : List (Text × ℕ)) (watched : List ℕ) (e : Expr) : Prop :=
  ∀ r ∈ e.references, ∀ n, r.resolve names = some n → n ∈ watched

/-- the expression refers back to watched groups, and nests atomic groups and looks not too deep -/
structure Expr.Fits (p : Program) (depth : ℕ) (e : Expr) : Prop where
  depth_le : e.depth ≤ depth
  watched : e.Watched p.names p.watched

/-- the probe gives the preferred outcome of what is nested less deep than `depth` -/
def Exact (p : Program) (depth : ℕ) (probe : Probe) : Prop :=
  ∀ d e s, e.depth < depth → e.Watched p.names p.watched → (probe d e s).map (·.val) = (p.outcomes e d s).head?

theorem Task.onward_of_mem_outcomes {p : Program} {d : Direction} {task : Task} {s t : State}
    (h : t ∈ task.outcomes p d s) : Onward d s t := by
  cases task with
  | expr e => exact Program.onward_of_mem_outcomes e d s t h
  | close n opened =>
    simp only [outcomes, List.mem_singleton] at h
    exact h ▸ (Onward.refl d s).recapture _
  | again e lazy start =>
    simp only [outcomes] at h
    split at h
    · rw [List.mem_singleton.1 h]
      exact .refl d s
    · exact Repetition.rel_of_mem_unlimited (Onward.refl d) Onward.trans (Program.onward_of_mem_outcomes e d) _ _ s t h

/-! ## Repetitions, one iteration at a time -/

namespace Repetition

theorem flatMap_order {α β : Type} (lazy : Bool) (again stop : List α) (f : α → List β) :
    (order lazy again stop).flatMap f = order lazy (again.flatMap f) (stop.flatMap f) := by
  cases lazy <;> simp [order]

/-- an iteration that has to be made is made first -/
theorem iterate_succ (least : ℕ) (most : Option ℕ) (lazy : Bool) (room : State → ℕ) (body : State → List State)
    (s : State) : iterate ⟨least + 1, most, lazy⟩ room body s =
      (body s).flatMap (iterate ⟨least, most.map (· - 1), lazy⟩ room body) := by
  cases most with
  | none =>
    simp only [iterate, times, List.flatMap_assoc, Option.map_none]
    rfl
  | some most =>
    have h : most - (least + 1) = most - 1 - least := by omega
    simp only [iterate, times, List.flatMap_assoc, Option.map_some, h]
    rfl

theorem iterate_zero_none (lazy : Bool) (room : State → ℕ) (body : State → List State) (s : State) :
    iterate ⟨0, none, lazy⟩ room body s = unlimited lazy room body s := by
  simp only [iterate, times, List.flatMap_cons, List.flatMap_nil, List.append_nil]

theorem iterate_zero_some (most : ℕ) (lazy : Bool) (room : State → ℕ) (body : State → List State) (s : State) :
    iterate ⟨0, some most, lazy⟩ room body s = upTo lazy body most s := by
  simp only [iterate, times, List.flatMap_cons, List.flatMap_nil, List.append_nil, Nat.sub_zero]

end Repetition

/-! ## Steps of an attempt -/

namespace Attempt

variable {p : Program} {probe : Probe} {depth : ℕ}

def outcomes (p : Program) (d : Direction) (a : Attempt) : List State := p.follow d a.tasks a.state

theorem follow_expr (d : Direction) (e : Expr) (rest : List Task) (s : State) :
    p.follow d (.expr e :: rest) s = (p.outcomes e d s).flatMap (p.follow d rest) := rfl

/-- what an open-ended repetition leads to, by way of the task that asks whether an iteration has moved on -/
theorem flatMap_unlimited (d : Direction) (e : Expr) (lazy : Bool) (rest : List Task) (s : State) :
    (Repetition.unlimited lazy d.room (p.outcomes e d) s).flatMap (p.follow d rest) =
      Repetition.order lazy (p.follow d (.expr e :: .again e lazy s.place :: rest) s) (p.follow d rest s) := by
  rw [Repetition.unlimited, Repetition.flatMap_order, List.flatMap_assoc, List.flatMap_singleton, follow_expr]
  congr 1
  apply List.flatMap_congr
  intro t ht
  have hstay := (Program.onward_of_mem_outcomes e d s t ht).stayed_iff
  by_cases hroom : d.room t < d.room s
  · have hplace : t.place ≠ s.place := fun h => hstay.1 h hroom
    simp only [Program.follow, Task.outcomes, hroom, hplace, if_true, if_false]
  · have hplace : t.place = s.place := hstay.2 hroom
    simp only [Program.follow, Task.outcomes, hroom, hplace, if_true, if_false]

theorem flatMap_expand (hprobe : Exact p depth probe) (d : Direction) (rest : List Task) (s : State) {e : Expr}
    (he : e.Fits p depth) :
    (expand p probe d rest s e).flatMap (outcomes p d) = (p.outcomes e d s).flatMap (p.follow d rest) := by
  cases e with
  | empty => simp only [expand, Program.outcomes, List.flatMap_singleton, outcomes]
  | char test => simp only [expand, Program.outcomes, List.flatMap_map, outcomes]
  | anchor a =>
    simp only [expand, Program.outcomes]
    split <;> simp only [List.flatMap_singleton, List.flatMap_nil, outcomes]
  | cat a b =>
    cases d <;> simp only [expand, Program.outcomes, List.flatMap_singleton, outcomes, follow_expr, List.flatMap_assoc]
    <;> rfl
  | alt a b =>
    simp only [expand, Program.outcomes, List.flatMap_cons, List.flatMap_nil, List.append_nil, outcomes, follow_expr,
      List.flatMap_append]
  | group n e =>
    simp only [expand, Program.outcomes, List.flatMap_singleton, outcomes, follow_expr, List.flatMap_map]
    apply List.flatMap_congr
    intro t _
    simp only [Program.follow, Task.outcomes, List.flatMap_singleton]
  | backref r caseless => simp only [expand, Program.outcomes, List.flatMap_map, outcomes]
  | repeated e r =>
    obtain ⟨least, most, lazy⟩ := r
    cases least with
    | succ least =>
      simp only [expand, Program.outcomes, List.flatMap_singleton, outcomes, Repetition.iterate_succ, follow_expr,
        List.flatMap_assoc]
      rfl
    | zero =>
      rcases most with _ | _ | most
      · simp only [expand, Program.outcomes, Repetition.iterate_zero_none, Repetition.flatMap_order,
          List.flatMap_singleton, outcomes, flatMap_unlimited]
      · simp only [expand, Program.outcomes, Repetition.iterate_zero_some, Repetition.upTo, List.flatMap_singleton,
          outcomes]
      · simp only [expand, Program.outcomes, Repetition.iterate_zero_some, Repetition.upTo, Repetition.flatMap_order,
          List.flatMap_singleton, outcomes, follow_expr, List.flatMap_assoc]
        congr 1
        apply List.flatMap_congr
        intro t _
        rw [follow_expr, Program.outcomes, Repetition.iterate_zero_some]
  | atomic e =>
    simp only [expand, Program.outcomes, List.flatMap_map, outcomes, hprobe d e s he.depth_le he.watched]
  | look behind negated e =>
    simp only [expand, Program.outcomes, List.flatMap_map, outcomes, hprobe _ e s he.depth_le he.watched]

/-- **What an attempt leads to is what its next attempts lead to**, in order -/
theorem flatMap_next (hprobe : Exact p depth probe) (d : Direction) {a : Attempt} (htasks : a.tasks ≠ [])
    (hfits : ∀ e, .expr e ∈ a.tasks → e.Fits p depth) :
    a.outcomes p d = (a.next p probe d).flatMap (outcomes p d) := by
  obtain ⟨tasks, s⟩ := a
  match tasks with
  | [] => exact absurd rfl htasks
  | .expr e :: rest => exact (flatMap_expand hprobe d rest s (hfits e List.mem_cons_self)).symm
  | .close n opened :: rest =>
    simp only [next, outcomes, Program.follow, Task.outcomes, List.flatMap_singleton]
  | .again e lazy start :: rest =>
    simp only [next, outcomes, Program.follow, Task.outcomes]
    by_cases hp : s.place = start
    · simp only [hp, if_true, List.flatMap_singleton, outcomes]
    · simp only [hp, if_false, List.flatMap_singleton, outcomes, follow_expr, Program.outcomes,
        Repetition.iterate_zero_none]

end Attempt

/-! ## The invariant of the walk -/

/-- the second place is the first one or lies further on -/
def Direction.Beyond : Direction → ℕ → ℕ → Prop
  | forward, m, n => m ≤ n
  | backward, m, n => n ≤ m

theorem Direction.Beyond.refl (d : Direction) (n : ℕ) : d.Beyond n n := by
  cases d <;> exact le_rfl

theorem Direction.Beyond.trans {d : Direction} {l m n : ℕ} (h₁ : d.Beyond l m) (h₂ : d.Beyond m n) : d.Beyond l n := by
  cases d
  · exact le_trans h₁ h₂
  · exact le_trans h₂ h₁

theorem Onward.beyond {d : Direction} {s t : State} (h : Onward d s t) : d.Beyond s.place t.place := by
  have hl : t.place + t.after.length = s.place + s.after.length := by
    rw [← t.length_whole, ← s.length_whole, h.whole]
  have hs := s.place_eq
  have ht := t.place_eq
  have hr := h.reaches
  cases d <;> simp only [Direction.Reaches, Direction.room, Direction.Beyond] at * <;> omega

/-- a task that can stand in an attempt at the given place of the text -/
def Task.Fits (p : Program) (depth : ℕ) (d : Direction) (whole : Text) (place : ℕ) : Task → Prop
  | expr e => e.Fits p depth
  | close _ opened => opened.whole = whole
  | again e _ start => e.Fits p depth ∧ d.Beyond start place

/-- a task goes on fitting as the attempt reads on -/
theorem Task.Fits.mono {p : Program} {depth : ℕ} {d : Direction} {whole : Text} {m n : ℕ} {t : Task}
    (h : t.Fits p depth d whole m) (hmn : d.Beyond m n) : t.Fits p depth d whole n := by
  cases t with
  | expr e => exact h
  | close n opened => exact h
  | again e lazy start => exact ⟨h.1, h.2.trans hmn⟩

namespace Attempt

variable {p : Program} {probe : Probe} {depth : ℕ} {d : Direction}

/-- the attempt stands in the text, and its tasks fit -/
structure Fits (p : Program) (depth : ℕ) (d : Direction) (whole : Text) (a : Attempt) : Prop where
  text : a.state.whole = whole
  tasks : ∀ t ∈ a.tasks, t.Fits p depth d whole a.state.place

/-- an attempt made from another one: further on, with some new tasks that fit before those that were left -/
structure Continues (p : Program) (depth : ℕ) (d : Direction) (rest : List Task) (s : State) (b : Attempt) : Prop where
  onward : Onward d s b.state
  tasks : ∀ t ∈ b.tasks, t ∈ rest ∨ t.Fits p depth d s.whole b.state.place

theorem continues_of_onward {rest : List Task} {s t : State} (h : Onward d s t) : Continues p depth d rest s ⟨rest, t⟩ :=
  ⟨h, fun _ ht => .inl ht⟩

theorem continues_of_one {rest : List Task} {s : State} {t : Task} (h : t.Fits p depth d s.whole s.place) :
    Continues p depth d rest s ⟨t :: rest, s⟩ := by
  refine ⟨.refl d s, ?_⟩
  intro u hu
  rcases List.mem_cons.1 hu with rfl | hu
  · exact .inr h
  · exact .inl hu

theorem continues_of_two {rest : List Task} {s : State} {t u : Task} (ht : t.Fits p depth d s.whole s.place)
    (hu : u.Fits p depth d s.whole s.place) : Continues p depth d rest s ⟨t :: u :: rest, s⟩ := by
  refine ⟨.refl d s, ?_⟩
  intro v hv
  rcases List.mem_cons.1 hv with rfl | hv
  · exact .inr ht
  · exact (continues_of_one hu).tasks v hv

theorem continues_of_mem_expand (hprobe : Exact p depth probe) {rest : List Task} {s : State} {e : Expr}
    (he : e.Fits p depth) {b : Attempt} (h : b ∈ expand p probe d rest s e) : Continues p depth d rest s b := by
  cases e with
  | empty =>
    simp only [expand, List.mem_singleton] at h
    exact h ▸ continues_of_onward (.refl d s)
  | char test =>
    simp only [expand, List.mem_map, Option.mem_toList] at h
    obtain ⟨t, ht, rfl⟩ := h
    exact continues_of_onward (Program.onward_of_step ht)
  | anchor a =>
    simp only [expand] at h
    split at h
    · rw [List.mem_singleton.1 h]
      exact continues_of_onward (.refl d s)
    · simp at h
  | cat a c =>
    have ha : a.Fits p depth := ⟨(le_max_left _ _).trans he.1, fun r hr => he.2 r (List.mem_append_left _ hr)⟩
    have hc : c.Fits p depth := ⟨(le_max_right _ _).trans he.1, fun r hr => he.2 r (List.mem_append_right _ hr)⟩
    cases d <;> simp only [expand, List.mem_singleton] at h <;> subst h
    · exact continues_of_two ha hc
    · exact continues_of_two hc ha
  | alt a c =>
    have ha : a.Fits p depth := ⟨(le_max_left _ _).trans he.1, fun r hr => he.2 r (List.mem_append_left _ hr)⟩
    have hc : c.Fits p depth := ⟨(le_max_right _ _).trans he.1, fun r hr => he.2 r (List.mem_append_right _ hr)⟩
    simp only [expand, List.mem_cons, List.not_mem_nil, or_false] at h
    rcases h with rfl | rfl
    · exact continues_of_one ha
    · exact continues_of_one hc
  | group n e =>
    simp only [expand, List.mem_singleton] at h
    subst h
    have hsub : e.Fits p depth := ⟨he.1, he.2⟩
    exact continues_of_two hsub rfl
  | backref r caseless =>
    simp only [expand, List.mem_map, Option.mem_toList] at h
    obtain ⟨t, ht, rfl⟩ := h
    exact continues_of_onward (Program.onward_of_again ht)
  | repeated e r =>
    have hsub : e.Fits p depth := ⟨he.1, he.2⟩
    have hless : ∀ r', (Expr.repeated e r').Fits p depth := fun _ => ⟨he.1, he.2⟩
    obtain ⟨least, most, lazy⟩ := r
    cases least with
    | succ least =>
      simp only [expand, List.mem_singleton] at h
      subst h
      exact continues_of_two hsub (hless _)
    | zero =>
      rcases most with _ | _ | most
      · simp only [expand, Repetition.mem_order, List.mem_singleton] at h
        rcases h with rfl | rfl
        · exact continues_of_two hsub ⟨hsub, .refl d _⟩
        · exact continues_of_onward (.refl d s)
      · simp only [expand, List.mem_singleton] at h
        exact h ▸ continues_of_onward (.refl d s)
      · simp only [expand, Repetition.mem_order, List.mem_singleton] at h
        rcases h with rfl | rfl
        · exact continues_of_two hsub (hless _)
        · exact continues_of_onward (.refl d s)
  | atomic e =>
    simp only [expand, hprobe d e s he.depth_le he.watched, List.mem_map, Option.mem_toList] at h
    obtain ⟨t, ht, rfl⟩ := h
    exact continues_of_onward (Program.onward_of_mem_outcomes e d s t (List.mem_of_head? ht))
  | look behind negated e =>
    simp only [expand, List.mem_map, Option.mem_toList] at h
    obtain ⟨t, ht, rfl⟩ := h
    exact continues_of_onward (Program.onward_of_seen ht)

/-- **The invariant is kept** from an attempt to those it becomes -/
theorem fits_of_mem_next (hprobe : Exact p depth probe) {whole : Text} {a b : Attempt} (ha : a.Fits p depth d whole)
    (h : b ∈ a.next p probe d) : b.Fits p depth d whole := by
  obtain ⟨tasks, s⟩ := a
  obtain ⟨hw, ht⟩ := ha
  have hstep : ∀ rest, (∀ t ∈ rest, t ∈ tasks) → Continues p depth d rest s b → b.Fits p depth d whole := by
    intro rest hrest hb
    refine ⟨hb.onward.whole.trans hw, ?_⟩
    intro t hbt
    rcases hb.tasks t hbt with hr | hf
    · exact (ht t (hrest t hr)).mono hb.onward.beyond
    · exact hw ▸ hf
  match tasks with
  | [] => simp [next] at h
  | .expr e :: rest =>
    have he : e.Fits p depth := ht _ List.mem_cons_self
    exact hstep rest (fun t => List.mem_cons_of_mem _) (continues_of_mem_expand hprobe he h)
  | .close n opened :: rest =>
    simp only [next, List.mem_singleton] at h
    subst h
    exact hstep rest (fun t => List.mem_cons_of_mem _) (continues_of_onward ((Onward.refl d s).recapture _))
  | .again e lazy start :: rest =>
    have he : e.Fits p depth := (ht _ List.mem_cons_self).1
    simp only [next] at h
    split at h <;> rw [List.mem_singleton] at h <;> subst h
    · exact hstep rest (fun t => List.mem_cons_of_mem _) (continues_of_onward (.refl d s))
    · have hall : (Expr.repeated e ⟨0, none, lazy⟩).Fits p depth := ⟨he.1, he.2⟩
      exact hstep rest (fun t => List.mem_cons_of_mem _) (continues_of_one hall)

end Attempt

end UriRouting.Regex
