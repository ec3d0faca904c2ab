/-
What a full match finds. The executable search notes failed attempts under keys and settles atomic groups and looks by
probes; the outcomes of an expression are a plain list, the preferred one first.

- `alike_of_key`: attempts of one key stand at the same place of the text with tasks that lead on alike.
- `exact_probe`: a probe of some depth gives the head of the outcomes of whatever is nested less deep.
- `fullMatch_eq_find?`: a full match is the first outcome of the expression that has reached the end of the text.
- `outcomes_congr`: what outcomes depend on beside the expression.

From here on nothing about the search is needed: what matches, and with which captures, is a question about `outcomes`.
-/
import UriRouting.Proofs.Search
import UriRouting.Proofs.Regex.Alike

namespace UriRouting.Regex

/-! ## Tasks that lead on alike -/

/-- tasks of which each leads alike states, at the place or beyond it, to alike states -/
inductive Task.Alike (names : List (Text × ℕ)) (watched : List ℕ) (d : Direction) (place : ℕ) : Task → Task → Prop where
  | expr {e : Expr} (he : e.Watched names watched) : Alike names watched d place (.expr e) (.expr e)
  | close {n : ℕ} {o o' : State} (h : n ∈ watched → o.after = o'.after) :
    Alike names watched d place (.close n o) (.close n o')
  | again {e : Expr} {lazy : Bool} {start start' : ℕ} (he : e.Watched names watched)
    (h : ∀ q, d.Beyond place q → (q = start ↔ q = start')) :
    Alike names watched d place (.again e lazy start) (.again e lazy start')

variable {p : Program} {watched : List ℕ} {d : Direction} {place : ℕ}

theorem Task.Alike.outcomes {task task' : Task} (ht : Task.Alike p.names watched d place task task') {s t : State}
    (h : Regex.Alike watched s t) (hs : d.Beyond place s.place) :
    AlikeList watched (task.outcomes p d s) (task'.outcomes p d t) := by
  cases ht with
  | expr he => exact Program.alike_of_outcomes _ he d h
  | close ho => exact .cons (h.capture _ d ho) .nil
  | again he hq =>
    simp only [Task.outcomes, ← h.place, ← hq _ hs]
    split
    · exact .cons h .nil
    · exact Repetition.related_unlimited (fun _ => True) (fun _ _ _ _ hst huv => hst.room_lt_iff huv d)
        (fun _ _ _ hst => Program.alike_of_outcomes _ he d hst) (fun _ _ _ _ => trivial) _ trivial h

theorem alike_of_follow {tasks tasks' : List Task} (ht : List.Forall₂ (Task.Alike p.names watched d place) tasks tasks')
    {s t : State} (h : Alike watched s t) (hs : d.Beyond place s.place) :
    AlikeList watched (p.follow d tasks s) (p.follow d tasks' t) := by
  induction ht generalizing s t with
  | nil => exact .cons h .nil
  | cons hx _ ih =>
    -- the outcomes of the first task are further on, so the others are asked beyond the place as well
    apply forall₂_flatMap (hx.outcomes h hs)
    intro u hu v huv
    exact ih huv (hs.trans (Task.onward_of_mem_outcomes hu).beyond)

/-! ## Keys -/

theorem task_alike_of_key {depth : ℕ} {whole : Text} {task task' : Task} (ht : task.Fits p depth d whole place)
    (ht' : task'.Fits p depth d whole place) (hk : task.key p.watched place = task'.key p.watched place) :
    Task.Alike p.names p.watched d place task task' := by
  cases task <;> cases task' <;> simp only [Task.key, TaskKey.expr.injEq, TaskKey.close.injEq, TaskKey.again.injEq,
    reduceCtorEq] at hk
  case expr.expr e e' =>
    subst hk
    exact .expr ht.watched
  case close.close n o n' o' =>
    obtain ⟨rfl, ho⟩ := hk
    apply Task.Alike.close
    intro hn
    have hp : o.place = o'.place := by simpa [hn] using ho
    exact (State.sides_eq (ht.trans ht'.symm) hp).2
  case again.again e lazy start e' lazy' start' =>
    obtain ⟨rfl, rfl, hstay⟩ := hk
    have hiff : (place == start) = true ↔ (place == start') = true := by rw [hstay]
    rw [beq_iff_eq, beq_iff_eq] at hiff
    apply Task.Alike.again ht.1.watched
    intro q hq
    have h1 := ht.2
    have h2 := ht'.2
    cases d <;> simp only [Direction.Beyond] at h1 h2 hq <;> omega

/-- **Attempts of one key lead on alike**: same place in the text, same watched captures, tasks alike one by one -/
theorem alike_of_key {depth : ℕ} {whole : Text} {a b : Attempt} (ha : a.Fits p depth d whole)
    (hb : b.Fits p depth d whole) (hk : a.key p.watched = b.key p.watched) :
    Alike p.watched a.state b.state ∧
      List.Forall₂ (Task.Alike p.names p.watched d a.state.place) a.tasks b.tasks := by
  simp only [Attempt.key, Key.mk.injEq] at hk
  obtain ⟨htasks, hplace, hcaptures⟩ := hk
  obtain ⟨hbefore, hafter⟩ := State.sides_eq (ha.text.trans hb.text.symm) hplace
  refine ⟨⟨hbefore, hafter, List.map_inj_left.1 hcaptures⟩, ?_⟩
  rw [← hplace] at htasks
  have hfa := ha.tasks
  have hfb := hplace ▸ hb.tasks
  generalize a.tasks = ts at htasks hfa ⊢
  generalize b.tasks = us at htasks hfb ⊢
  induction ts generalizing us with
  | nil =>
    cases us with
    | nil => exact .nil
    | cons u us => simp at htasks
  | cons t ts ih =>
    cases us with
    | nil => simp at htasks
    | cons u us =>
      simp only [List.map_cons, List.cons.injEq] at htasks
      have htu := task_alike_of_key (hfa t List.mem_cons_self) (hfb u List.mem_cons_self) htasks.1
      exact .cons htu (ih (fun x hx => hfa x (List.mem_cons_of_mem t hx)) us htasks.2
        fun x hx => hfb x (List.mem_cons_of_mem u hx))

/-! ## The search -/

theorem map_first?_attempts {depth : ℕ} {probe : Probe} (hprobe : Exact p depth probe) {whole : Text} {a : Attempt}
    (ha : a.Fits p depth d whole) :
    ((p.attempts probe d).first? a).map Attempt.state = (a.outcomes p d).head? := by
  refine (p.attempts probe d).map_first?_eq_head? (P := Attempt.Fits p depth d whole)
    (fun a ha b hb => Attempt.fits_of_mem_next hprobe ha hb) (Attempt.outcomes p d) Attempt.state ?_ ?_ a ha
  · intro a _ hgoal
    have hnil : a.tasks = [] := List.isEmpty_iff.1 hgoal
    simp only [Attempt.outcomes, hnil, Program.follow]
  · intro a ha hgoal
    have hne : a.tasks ≠ [] := fun h => by simp [Program.attempts, h] at hgoal
    exact Attempt.flatMap_next hprobe d hne fun e he => ha.tasks _ he

/-- what is performed is the first thing that the tasks lead to -/
theorem Program.perform_eq_head? {depth : ℕ} {probe : Probe} (hprobe : Exact p depth probe) {tasks : List Task}
    {s : State} (hfits : Attempt.Fits p depth d s.whole ⟨tasks, s⟩) :
    (p.perform probe d tasks s).map (·.val) = (p.follow d tasks s).head? := by
  have hkey : ∀ a b, Attempt.Fits p depth d s.whole a → Attempt.Fits p depth d s.whole b →
      a.key p.watched = b.key p.watched → (p.attempts probe d).first? a = none →
      (p.attempts probe d).first? b = none := by
    intro a b ha hb hk hnone
    obtain ⟨hst, htasks⟩ := alike_of_key ha hb hk
    have hab : AlikeOption p.watched (a.outcomes p d).head? (b.outcomes p d).head? :=
      rel_head? (alike_of_follow htasks hst (.refl d _))
    rw [← map_first?_attempts hprobe ha, ← map_first?_attempts hprobe hb, hnone] at hab
    cases hfb : (p.attempts probe d).first? b with
    | none => rfl
    | some c => rw [hfb] at hab; cases hab
  have hsearch := (p.attempts probe d).search_eq_first? (Attempt.key p.watched)
    (fun a ha b hb => Attempt.fits_of_mem_next hprobe ha hb) hkey hfits
  have hperform : (p.perform probe d tasks s).map (·.val) =
      ((p.attempts probe d).search (Attempt.key p.watched) ⟨tasks, s⟩).map Attempt.state := by
    unfold Program.perform
    split
    · rename_i h
      exact (congrArg (Option.map Attempt.state) h).symm
    · rename_i a h
      exact (congrArg (Option.map Attempt.state) h).symm
  rw [hperform, hsearch, map_first?_attempts hprobe hfits]
  rfl

/-- **Probes are exact**, each for what is nested less deep than it is told -/
theorem exact_probe (depth : ℕ) : Exact p depth (p.probe depth) := by
  induction depth with
  | zero =>
    intro d e s h
    exact absurd h (Nat.not_lt_zero _)
  | succ depth ih =>
    intro d e s he hw
    have hfits : Attempt.Fits p depth d s.whole ⟨[.expr e], s⟩ := by
      refine ⟨rfl, ?_⟩
      intro t ht
      rw [List.mem_singleton.1 ht]
      exact ⟨Nat.le_of_lt_succ he, hw⟩
    have h := Program.perform_eq_head? ih hfits
    rw [Attempt.follow_expr] at h
    simpa [Program.probe, Program.follow] using h

theorem mem_watched {r : Reference} {n : ℕ} (hr : r ∈ p.root.references) (hn : r.resolve p.names = some n) :
    n ∈ p.watched := List.mem_filterMap.2 ⟨r, hr, hn⟩

/-- **A full match is the first outcome at the end of the text** -/
theorem Program.fullMatch_eq_find? (p : Program) (text : Text) :
    p.fullMatch text =
      ((p.outcomes p.root .forward (.start text)).find? (·.after.isEmpty)).map State.captures := by
  have hfits : Attempt.Fits p p.root.depth .forward (State.start text).whole
      ⟨[.expr p.root, .expr (.anchor .textEnd)], .start text⟩ := by
    refine ⟨rfl, ?_⟩
    intro t ht
    simp only [List.mem_cons, List.not_mem_nil, or_false] at ht
    rcases ht with rfl | rfl
    · exact ⟨le_rfl, fun r hr n hn => mem_watched hr hn⟩
    · exact ⟨Nat.zero_le _, fun r hr => absurd hr List.not_mem_nil⟩
  have h := Program.perform_eq_head? (exact_probe p.root.depth) hfits
  have hfollow : p.follow .forward [.expr p.root, .expr (.anchor .textEnd)] (.start text) =
      (p.outcomes p.root .forward (.start text)).filter (·.after.isEmpty) := by
    rw [Attempt.follow_expr]
    generalize p.outcomes p.root .forward (.start text) = l
    induction l with
    | nil => rfl
    | cons s l ih =>
      rw [List.flatMap_cons, ih, List.filter_cons]
      cases hs : s.after.isEmpty <;> simp [Program.follow, Task.outcomes, Program.outcomes, Anchor.holds, hs]
  rw [hfollow, List.head?_filter] at h
  rw [Program.fullMatch, ← h, Option.map_map]
  rfl

/-- what an expression leads to depends on the names of the groups, and on what classes know -/
theorem Program.outcomes_congr {p q : Program} (hnames : q.names = p.names) (hascii : q.asciiOnly = p.asciiOnly)
    (e : Expr) : q.outcomes e = p.outcomes e := by
  have haccepts : q.acceptsAgain = p.acceptsAgain := by
    funext caseless captured c
    rw [acceptsAgain, acceptsAgain, hascii]
  induction e with
  | cat a b iha ihb =>
    funext d s
    cases d <;> simp only [outcomes, iha, ihb]
  | _ =>
    funext d s
    simp only [outcomes, step?, again?, *]

end UriRouting.Regex
