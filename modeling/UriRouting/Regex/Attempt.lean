/-
Matching as a tree of choices. An attempt is a state with the tasks that are still to be done from there, the nearest
first; with none left it has succeeded. Alternatives and repetitions branch, a test that does not hold ends its branch.
Atomic groups and looks are settled by a probe: a function that gives the preferred outcome of their body, and reads on
or stays.

A path ends since each child has less text to read, or the same place and less weight of tasks.
-/
import UriRouting.Regex.Outcomes
import UriRouting.Backtrack

namespace UriRouting.Regex

/-- something an attempt still has to do -/
inductive Task where
  | expr (e : Expr)
  /-- the group ends here that was opened in the given state -/
  | close (group : Nat) (opened : State)
  /-- an iteration ends here that began at the given place; without limit more may follow -/
  | again (body : Expr) (lazy : Bool) (start : Nat)

/-- a state with the tasks to be done from there -/
structure Attempt where
  tasks : List Task
  state : State

/-- is the second state further on in the direction, or at the same place? -/
def Direction.Reaches (d : Direction) (s t : State) : Prop :=
  d.room t < d.room s ∨ d.room t = d.room s ∧ t.place = s.place

/-- the preferred outcome of an expression, if it has any -/
abbrev Probe := (d : Direction) → Expr → (s : State) → Option { t : State // d.Reaches s t }

namespace Direction

theorem Reaches.refl (d : Direction) (s : State) : d.Reaches s s := .inr ⟨rfl, rfl⟩

theorem Reaches.trans {d : Direction} {s t u : State} (h₁ : d.Reaches s t) (h₂ : d.Reaches t u) : d.Reaches s u := by
  simp only [Reaches] at *
  omega

theorem room_of_read {d : Direction} {s t : State} {c : Char} (h : d.read s = some (c, t)) :
    d.room s = d.room t + 1 := by
  obtain ⟨before, after, place, cs, hp⟩ := s
  cases d with
  | forward =>
    cases after with
    | nil => simp [read] at h
    | cons x rest =>
      simp only [read, Option.some.injEq, Prod.mk.injEq] at h
      simp [room, ← h.2]
  | backward =>
    cases before with
    | nil => simp [read] at h
    | cons x rest =>
      simp only [read, Option.some.injEq, Prod.mk.injEq] at h
      simp [room, ← h.2]

theorem room_lt_of_read {d : Direction} {s t : State} {c : Char} (h : d.read s = some (c, t)) :
    d.room t < d.room s := by
  rw [room_of_read h]
  exact Nat.lt_succ_self _

theorem reaches_of_readText {d : Direction} {accepts : Char → Char → Bool} {x : Text} {s t : State}
    (h : d.readText accepts x s = some t) : d.Reaches s t := by
  induction x generalizing s with
  | nil => simp only [readText, Option.some.injEq] at h; exact h ▸ .refl d s
  | cons c x ih =>
    simp only [readText] at h
    split at h
    · rename_i hr
      split at h
      · exact .trans (.inl (room_lt_of_read hr)) (ih h)
      · simp at h
    · simp at h

end Direction

namespace Program

theorem room_lt_of_step {p : Program} {test : CharTest} {d : Direction} {s t : State} (h : p.step? test d s = some t) :
    d.room t < d.room s := by
  simp only [step?] at h
  split at h
  · rename_i hr
    split at h
    · exact Option.some.inj h ▸ Direction.room_lt_of_read hr
    · simp at h
  · simp at h

theorem reaches_of_again {p : Program} {r : Reference} {caseless : Bool} {d : Direction} {s t : State}
    (h : p.again? r caseless d s = some t) : d.Reaches s t := by
  obtain ⟨x, _, hx⟩ := Option.bind_eq_some_iff.1 h
  exact Direction.reaches_of_readText hx

theorem reaches_of_seen {negated : Bool} {d : Direction} {s t : State} {o : Option State}
    (h : seen negated s o = some t) : d.Reaches s t := by
  cases o <;> cases negated <;> simp only [seen, Bool.false_eq_true, if_true, if_false, Option.some.injEq,
    reduceCtorEq] at h <;> subst h
  · exact .refl d s
  · exact .inr ⟨by cases d <;> rfl, rfl⟩

end Program

/-- how many steps an expression can take at one place, at most -/
def Expr.weight : Expr → Nat
  | empty | char _ | anchor _ | backref _ _ | atomic _ | look _ _ _ => 1
  | cat a b | alt a b => a.weight + b.weight + 1
  | group _ e => e.weight + 2
  | repeated e r =>
    match r.most with
    | some most => (r.least + most) * (e.weight + 1) + 1
    | none => r.least * (e.weight + 1) + e.weight + 3

theorem Expr.weight_pos (e : Expr) : 0 < e.weight := by
  cases e <;> simp only [weight] <;> (try split) <;> omega

/-- an iteration and what is left of its repetition weigh less than the repetition -/
theorem Expr.weight_repeated_succ (e : Expr) (least : Nat) (most : Option Nat) (lazy : Bool) :
    e.weight + (repeated e ⟨least, most.map (· - 1), lazy⟩).weight < (repeated e ⟨least + 1, most, lazy⟩).weight := by
  cases most with
  | none => simp only [weight, Option.map_none, Nat.succ_mul]; omega
  | some most =>
    have : (least + (most - 1)) * (e.weight + 1) ≤ (least + most) * (e.weight + 1) :=
      Nat.mul_le_mul_right _ (by omega)
    have hs : (least + 1 + most) * (e.weight + 1) = (least + most) * (e.weight + 1) + (e.weight + 1) := by
      rw [Nat.add_right_comm, Nat.succ_mul]
    simp only [weight, Option.map_some]
    omega

/-- the same for a task. An iteration ends its repetition unless it has moved on -/
def Task.weight (place : Nat) : Task → Nat
  | expr e => e.weight
  | close _ _ => 1
  | again e _ start => if place = start then 1 else e.weight + 4

namespace Attempt

/-- what falls from each attempt to the next -/
def rank (d : Direction) (a : Attempt) : Nat × Nat :=
  (d.room a.state, total (a.tasks.map (Task.weight a.state.place)))

/-- what an attempt becomes whose next task is the expression, the other tasks and the state given -/
def expand (p : Program) (probe : Probe) (d : Direction) (rest : List Task) (s : State) : Expr → List Attempt
  | .empty => [⟨rest, s⟩]
  | .char test => (p.step? test d s).toList.map (⟨rest, ·⟩)
  | .anchor a => if a.holds p.asciiOnly s then [⟨rest, s⟩] else []
  | .cat a b =>
    match d with
    | .forward => [⟨.expr a :: .expr b :: rest, s⟩]
    | .backward => [⟨.expr b :: .expr a :: rest, s⟩]
  | .alt a b => [⟨.expr a :: rest, s⟩, ⟨.expr b :: rest, s⟩]
  | .group n e => [⟨.expr e :: .close n s :: rest, s⟩]
  | .backref r caseless => (p.again? r caseless d s).toList.map (⟨rest, ·⟩)
  | .repeated e ⟨least + 1, most, lazy⟩ =>
    [⟨.expr e :: .expr (.repeated e ⟨least, most.map (· - 1), lazy⟩) :: rest, s⟩]
  | .repeated _ ⟨0, some 0, _⟩ => [⟨rest, s⟩]
  | .repeated e ⟨0, some (most + 1), lazy⟩ =>
    Repetition.order lazy [⟨.expr e :: .expr (.repeated e ⟨0, some most, lazy⟩) :: rest, s⟩] [⟨rest, s⟩]
  | .repeated e ⟨0, none, lazy⟩ =>
    Repetition.order lazy [⟨.expr e :: .again e lazy s.place :: rest, s⟩] [⟨rest, s⟩]
  | .atomic e => ((probe d e s).map (·.val)).toList.map (⟨rest, ·⟩)
  | .look behind negated e =>
    (Program.seen negated s ((probe (Program.lookDirection behind) e s).map (·.val))).toList.map (⟨rest, ·⟩)

def next (p : Program) (probe : Probe) (d : Direction) (a : Attempt) : List Attempt :=
  match a.tasks with
  | [] => []
  | .expr e :: rest => expand p probe d rest a.state e
  | .close n opened :: rest => [⟨rest, a.state.capture n d opened⟩]
  | .again e lazy start :: rest =>
    if a.state.place = start then [⟨rest, a.state⟩] else [⟨.expr (.repeated e ⟨0, none, lazy⟩) :: rest, a.state⟩]

/-- an attempt further on is of lower rank, whatever its tasks -/
theorem rank_lt_of_room {d : Direction} {a b : Attempt} (h : d.room b.state < d.room a.state) :
    Prod.Lex (· < ·) (· < ·) (b.rank d) (a.rank d) := .left _ _ h

/-- an attempt at the same place with lighter tasks is of lower rank -/
theorem rank_lt_of_weight {d : Direction} {a b : Attempt} (hroom : d.room b.state = d.room a.state)
    (h : total (b.tasks.map (Task.weight b.state.place)) < total (a.tasks.map (Task.weight a.state.place))) :
    Prod.Lex (· < ·) (· < ·) (b.rank d) (a.rank d) := by
  simp only [rank, hroom]
  exact .right _ h

/-- doing without a task is of lower rank, wherever it leads on -/
theorem rank_lt_of_reaches {d : Direction} {s t : State} (h : d.Reaches s t) {task : Task} {rest : List Task}
    (hw : 0 < task.weight s.place) :
    Prod.Lex (· < ·) (· < ·) (rank d ⟨rest, t⟩) (rank d ⟨task :: rest, s⟩) := by
  rcases h with h | ⟨hroom, hplace⟩
  · exact rank_lt_of_room h
  · refine rank_lt_of_weight hroom ?_
    simp only [hplace, List.map_cons, total_cons]
    omega

theorem rank_lt_of_mem_expand {p : Program} {probe : Probe} {d : Direction} {rest : List Task} {s : State} {e : Expr}
    {b : Attempt} (h : b ∈ expand p probe d rest s e) :
    Prod.Lex (· < ·) (· < ·) (b.rank d) (rank d ⟨.expr e :: rest, s⟩) := by
  have hpos : 0 < (Task.expr e).weight s.place := e.weight_pos
  have hstay : Prod.Lex (· < ·) (· < ·) (rank d ⟨rest, s⟩) (rank d ⟨.expr e :: rest, s⟩) :=
    rank_lt_of_reaches (.refl d s) hpos
  have hsum : ∀ (t : Task) (ts : List Task), total ((t :: ts).map (Task.weight s.place)) =
      t.weight s.place + total (ts.map (Task.weight s.place)) := fun t ts => by rw [List.map_cons, total_cons]
  have hlight : ∀ tasks : List Task, total (tasks.map (Task.weight s.place)) < e.weight →
      Prod.Lex (· < ·) (· < ·) (rank d ⟨tasks ++ rest, s⟩) (rank d ⟨.expr e :: rest, s⟩) := fun tasks ht => by
    refine rank_lt_of_weight rfl ?_
    simp only [List.map_append, total_append, List.map_cons, total_cons, Task.weight]
    omega
  cases e with
  | empty => simp only [expand, List.mem_singleton] at h; exact h ▸ hstay
  | char test =>
    simp only [expand, List.mem_map, Option.mem_toList] at h
    obtain ⟨t, ht, rfl⟩ := h
    exact rank_lt_of_room (Program.room_lt_of_step ht)
  | anchor a =>
    simp only [expand] at h
    split at h
    · simp only [List.mem_singleton] at h; exact h ▸ hstay
    · simp at h
  | cat a c =>
    cases d <;> simp only [expand, List.mem_singleton] at h <;> subst h
    · exact hlight [.expr a, .expr c] (by simp only [hsum, List.map_nil, total_nil, Task.weight, Expr.weight]; omega)
    · exact hlight [.expr c, .expr a] (by simp only [hsum, List.map_nil, total_nil, Task.weight, Expr.weight]; omega)
  | alt a c =>
    simp only [expand, List.mem_cons, List.not_mem_nil, or_false] at h
    rcases h with rfl | rfl
    · exact hlight [.expr a] (by simp only [hsum, List.map_nil, total_nil, Task.weight, Expr.weight]; omega)
    · exact hlight [.expr c] (by simp only [hsum, List.map_nil, total_nil, Task.weight, Expr.weight]; omega)
  | group n e =>
    simp only [expand, List.mem_singleton] at h
    subst h
    exact hlight [.expr e, .close n s] (by simp [Task.weight, Expr.weight])
  | backref r caseless =>
    simp only [expand, List.mem_map, Option.mem_toList] at h
    obtain ⟨t, ht, rfl⟩ := h
    exact rank_lt_of_reaches (Program.reaches_of_again ht) hpos
  | repeated e r =>
    obtain ⟨least, most, lazy⟩ := r
    match least, most with
    | least + 1, most =>
      simp only [expand, List.mem_singleton] at h
      subst h
      refine hlight [.expr e, .expr (.repeated e ⟨least, most.map (· - 1), lazy⟩)] ?_
      have := Expr.weight_repeated_succ e least most lazy
      simpa [Task.weight] using this
    | 0, some 0 => simp only [expand, List.mem_singleton] at h; exact h ▸ hstay
    | 0, some (most + 1) =>
      simp only [expand, Repetition.mem_order, List.mem_singleton] at h
      rcases h with rfl | rfl
      · refine hlight [.expr e, .expr (.repeated e ⟨0, some most, lazy⟩)] ?_
        simp only [List.map_cons, List.map_nil, total_cons, total_nil, Task.weight, Expr.weight, Nat.zero_add,
          Nat.succ_mul]
        omega
      · exact hstay
    | 0, none =>
      simp only [expand, Repetition.mem_order, List.mem_singleton] at h
      rcases h with rfl | rfl
      · exact hlight [.expr e, .again e lazy s.place] (by simp [Task.weight, Expr.weight])
      · exact hstay
  | atomic e =>
    simp only [expand, List.mem_map, Option.mem_toList, Option.map_eq_some_iff] at h
    obtain ⟨t, ⟨u, _, rfl⟩, rfl⟩ := h
    exact rank_lt_of_reaches u.property hpos
  | look behind negated e =>
    simp only [expand, List.mem_map, Option.mem_toList] at h
    obtain ⟨t, ht, rfl⟩ := h
    exact rank_lt_of_reaches (Program.reaches_of_seen ht) hpos

theorem reaches_of_mem_expand {p : Program} {probe : Probe} {d : Direction} {rest : List Task} {s : State} {e : Expr}
    {b : Attempt} (h : b ∈ expand p probe d rest s e) : d.Reaches s b.state := by
  cases e with
  | char test =>
    simp only [expand, List.mem_map, Option.mem_toList] at h
    obtain ⟨t, ht, rfl⟩ := h
    exact .inl (Program.room_lt_of_step ht)
  | anchor a =>
    simp only [expand] at h
    split at h
    · simp only [List.mem_singleton] at h; exact h ▸ .refl d s
    · simp at h
  | cat a c => cases d <;> simp only [expand, List.mem_singleton] at h <;> exact h ▸ .refl _ s
  | alt a c =>
    simp only [expand, List.mem_cons, List.not_mem_nil, or_false] at h
    rcases h with rfl | rfl <;> exact .refl d s
  | backref r caseless =>
    simp only [expand, List.mem_map, Option.mem_toList] at h
    obtain ⟨t, ht, rfl⟩ := h
    exact Program.reaches_of_again ht
  | repeated e r =>
    obtain ⟨least, most, lazy⟩ := r
    match least, most with
    | least + 1, most => simp only [expand, List.mem_singleton] at h; exact h ▸ .refl d s
    | 0, some 0 => simp only [expand, List.mem_singleton] at h; exact h ▸ .refl d s
    | 0, some (most + 1) =>
      simp only [expand, Repetition.mem_order, List.mem_singleton] at h
      rcases h with rfl | rfl <;> exact .refl d s
    | 0, none =>
      simp only [expand, Repetition.mem_order, List.mem_singleton] at h
      rcases h with rfl | rfl <;> exact .refl d s
  | atomic e =>
    simp only [expand, List.mem_map, Option.mem_toList, Option.map_eq_some_iff] at h
    obtain ⟨t, ⟨u, _, rfl⟩, rfl⟩ := h
    exact u.property
  | look behind negated e =>
    simp only [expand, List.mem_map, Option.mem_toList] at h
    obtain ⟨t, ht, rfl⟩ := h
    exact Program.reaches_of_seen ht
  | _ => simp only [expand, List.mem_singleton] at h; exact h ▸ .refl d s

/-- an attempt never goes back -/
theorem reaches_of_mem_next {p : Program} {probe : Probe} {d : Direction} {a b : Attempt} (h : b ∈ a.next p probe d) :
    d.Reaches a.state b.state := by
  obtain ⟨tasks, s⟩ := a
  match tasks with
  | [] => simp [next] at h
  | .expr e :: rest => exact reaches_of_mem_expand h
  | .close n opened :: rest =>
    simp only [next, List.mem_singleton] at h
    subst h
    exact .inr ⟨by cases d <;> rfl, rfl⟩
  | .again e lazy start :: rest =>
    simp only [next] at h
    split at h <;> simp only [List.mem_singleton] at h <;> exact h ▸ .refl d s

theorem rank_lt_of_mem_next {p : Program} {probe : Probe} {d : Direction} {a b : Attempt}
    (h : b ∈ a.next p probe d) : Prod.Lex (· < ·) (· < ·) (b.rank d) (a.rank d) := by
  obtain ⟨tasks, s⟩ := a
  match tasks with
  | [] => simp [next] at h
  | .expr e :: rest => exact rank_lt_of_mem_expand h
  | .close n opened :: rest =>
    simp only [next, List.mem_singleton] at h
    subst h
    exact rank_lt_of_weight (by cases d <;> rfl) (by simp [Task.weight, State.capture])
  | .again e lazy start :: rest =>
    simp only [next] at h
    split at h <;> rename_i hp <;> simp only [List.mem_singleton] at h <;> subst h <;>
      exact rank_lt_of_weight rfl (by simp [Task.weight, Expr.weight, hp])

end Attempt

end UriRouting.Regex
