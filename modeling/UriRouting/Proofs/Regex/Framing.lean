/-
Reading a sequence in surroundings. `Machine.within σ m` is the machine m with something around it: its outermost sequence
may be one that has more in it, and there may be open parentheses outside all of its own. What m reads it reads there as
well, as long as it neither ends a branch nor closes a parenthesis outside its own: those would be the business of what is
around.

- `step_within`: one element read in surroundings is that element read on its own.
- `run_behind`: a sequence up to its closing parenthesis (`untilClosed`), read in a group behind other elements.
- `branches_of_untilClosed`: such a sequence has no branches.
-/
import UriRouting.Proofs.Regex.Reading

namespace UriRouting.Regex

/-- what may be around a sequence that is read: more in the sequence itself, and open parentheses outside. Neither is to
make a difference to what is read next -/
structure Surroundings where
  /-- the sequence with what is more in it -/
  adapt : Sequence → Sequence
  frames : List Frame
  adapt_push : ∀ q e, (adapt q).push e = adapt (q.push e)
  adapt_last : ∀ q, (adapt q).last = q.last
  adapt_settle : ∀ q e, { adapt q with settled := e :: (adapt q).settled, last := none } =
    adapt { q with settled := e :: q.settled, last := none }
  /-- no group that a back-reference can mean is open outside -/
  isNoGroup : ∀ f ∈ frames, ∀ n, f.opening ≠ .capture n

namespace Surroundings

/-- a group in which some elements have been read already -/
def behind (front : List Expr) : Surroundings where
  adapt q := { q with settled := q.settled ++ front.reverse }
  frames := [⟨.plain, [], .start⟩]
  adapt_push q e := by simp only [Sequence.push, Sequence.elements, List.append_assoc]
  adapt_last _ := rfl
  adapt_settle _ _ := rfl
  isNoGroup f hf n := by
    rw [List.mem_singleton.1 hf]
    exact nofun

/-- nothing around, and no branches -/
def unbranched : Surroundings where
  adapt q := { q with branches := [] }
  frames := []
  adapt_push _ _ := rfl
  adapt_last _ := rfl
  adapt_settle _ _ := rfl
  isNoGroup _ hf := absurd hf List.not_mem_nil

end Surroundings

namespace Machine

def framesWithin (σ : Surroundings) : List Frame → List Frame
  | [] => σ.frames
  | [f] => { f with sequence := σ.adapt f.sequence } :: σ.frames
  | f :: g :: rest => f :: framesWithin σ (g :: rest)

def within (σ : Surroundings) (m : Machine) : Machine :=
  { m with
    sequence := if m.frames = [] then σ.adapt m.sequence else m.sequence
    frames := framesWithin σ m.frames }

/-- the machine at the parenthesis that closes the sequence it is in, with the source behind; none when a branch ends before
or nothing closes the sequence -/
def untilClosed (m : Machine) (s : Text) : Option (Machine × Text) :=
  match next? m.verbose s with
  | none => none
  | some (c, rest) =>
    if m.frames = [] ∧ c = ')' then some (m, rest)
    else if m.frames = [] ∧ c = '|' then none
    else
      match m.step c rest with
      | .error _ => none
      | .ok (m, rest) => if rest.length < s.length then untilClosed m rest else none
termination_by s.length

def inside (σ : Surroundings) : Except Fault (Machine × Text) → Except Fault (Machine × Text) :=
  Except.map fun x => (x.1.within σ, x.2)

/-! ## One element -/

variable (σ : Surroundings) (m : Machine)

@[simp] theorem flags_within : (m.within σ).flags = m.flags := rfl

@[simp] theorem names_within : (m.within σ).names = m.names := rfl

@[simp] theorem verbose_within : (m.within σ).verbose = m.verbose := rfl

@[simp] theorem push_within (e : Expr) : (m.within σ).push e = (m.push e).within σ := by
  obtain ⟨q, frames, flags, groups, names⟩ := m
  cases frames with
  | nil => simp only [within, push, if_true, σ.adapt_push]
  | cons f fs => rfl

@[simp] theorem pushChar_within (n : ℕ) : (m.within σ).pushChar n = (m.pushChar n).within σ :=
  push_within σ m _

@[simp] theorem enter_within (o : Opening) : (m.within σ).enter o = (m.enter o).within σ := by
  obtain ⟨q, frames, flags, groups, names⟩ := m
  cases frames <;> rfl

@[simp] theorem enterGroup_within : (m.within σ).enterGroup = m.enterGroup.within σ := by
  obtain ⟨q, frames, flags, groups, names⟩ := m
  cases frames <;> rfl

@[simp] theorem enterNamed_within (name : Text) : (m.within σ).enterNamed name = (m.enterNamed name).within σ := by
  obtain ⟨q, frames, flags, groups, names⟩ := m
  simp only [enterNamed, names_within]
  split
  · exact enter_within σ _ _
  · cases frames <;> rfl

/-- a group of the machine is open inside when it is open on its own -/
@[simp] theorem isOpen_within (r : Reference) : (m.within σ).isOpen r = m.isOpen r := by
  have hnone : ∀ n : ℕ, σ.frames.any (fun f => f.opening = .capture n) = false := by
    intro n
    rw [List.any_eq_false]
    intro f hf
    simpa using σ.isNoGroup f hf n
  have hany : ∀ (n : ℕ) (fs : List Frame), (framesWithin σ fs).any (fun f => f.opening = .capture n) =
      fs.any fun f => f.opening = .capture n := by
    intro n fs
    fun_induction framesWithin σ fs with
    | case1 => simp [hnone]
    | case2 f => simp [hnone]
    | case3 f g rest ih => rw [List.any_cons, List.any_cons, ih]
  simp only [isOpen, within, hany]

@[simp] theorem pushReference_within (r : Reference) :
    (m.within σ).pushReference r = (m.pushReference r).map (within σ) := by
  simp only [pushReference, isOpen_within, flags_within, push_within]
  split <;> rfl

@[simp] theorem pushEscaped_within (e : Escaped) :
    (m.within σ).pushEscaped e = (m.pushEscaped e).map (within σ) := by
  cases e <;> simp only [pushEscaped, flags_within, push_within, pushChar_within, pushReference_within, Except.map]

@[simp] theorem repeatLast_within (limits : Limits) (s : Text) :
    (m.within σ).repeatLast limits s = inside σ (m.repeatLast limits s) := by
  obtain ⟨q, frames, flags, groups, names⟩ := m
  cases frames with
  | nil =>
    simp only [repeatLast, within, if_true, σ.adapt_last]
    cases q.last with
    | none => rfl
    | some e =>
      simp only [σ.adapt_settle]
      rfl
  | cons f fs =>
    simp only [repeatLast, within, List.cons_ne_nil, if_false]
    cases q.last <;> rfl

/-- flags do not matter to what stands around -/
theorem setFlags_within (flags : Flags) : { m.within σ with flags } = within σ { m with flags } := rfl

@[simp] theorem flagGroup_within (s : Text) : (m.within σ).flagGroup s = inside σ (m.flagGroup s) := by
  simp only [flagGroup, verbose_within, flags_within, enter_within, setFlags_within]
  split
  · rfl
  · split <;> rfl

@[simp] theorem namedGroup_within (s : Text) : (m.within σ).namedGroup s = inside σ (m.namedGroup s) := by
  simp only [namedGroup, verbose_within, enterNamed_within]
  split
  · rfl
  · split <;> rfl

@[simp] theorem namedReference_within (s : Text) :
    (m.within σ).namedReference s = inside σ (m.namedReference s) := by
  simp only [namedReference, verbose_within, pushReference_within]
  split
  · rfl
  · split
    · rfl
    · cases m.pushReference _ <;> rfl

@[simp] theorem angleReference_within (s : Text) :
    (m.within σ).angleReference s = inside σ (m.angleReference s) := by
  simp only [angleReference, verbose_within, flags_within, isOpen_within, push_within, pushChar_within]
  split
  · split <;> rfl
  · rfl
  · rfl

@[simp] theorem parenthesis_within (s : Text) : (m.within σ).parenthesis s = inside σ (m.parenthesis s) := by
  unfold parenthesis
  simp only [verbose_within, enter_within, enterGroup_within, namedGroup_within, namedReference_within,
    flagGroup_within]
  split
  · split <;> rfl
  · rfl
  · rfl
  · rfl
  · split <;> rfl
  · split <;> rfl
  · rfl
  · split <;> rfl
  · rfl

/-- within a parenthesis of its own, a machine closes it the same way inside -/
theorem leave_within (h : m.frames ≠ []) : (m.within σ).leave = m.leave.map (within σ) := by
  obtain ⟨q, frames, flags, groups, names⟩ := m
  match frames with
  | [] => exact absurd rfl h
  | [f] =>
    simp only [leave, within, framesWithin, Except.map, if_true, List.cons_ne_nil, if_false, σ.adapt_push]
  | f :: g :: fs => rfl

theorem nextBranch_within (h : m.frames ≠ []) :
    { m.within σ with sequence := (m.within σ).sequence.nextBranch } =
      within σ { m with sequence := m.sequence.nextBranch } := by
  simp only [within, if_neg h]

/-- **One element read inside is the element read on its own**, where it does not end the outermost sequence or a branch of
it -/
theorem step_within {c : Char} (h : m.frames = [] → c ≠ ')' ∧ c ≠ '|') (s : Text) :
    (m.within σ).step c s = inside σ (m.step c s) := by
  unfold step
  split
  · have hframes : m.frames ≠ [] := fun hm => (h hm).2 rfl
    rw [nextBranch_within σ m hframes]
    rfl
  · have hframes : m.frames ≠ [] := fun hm => (h hm).1 rfl
    rw [leave_within σ m hframes]
    cases m.leave <;> rfl
  · exact parenthesis_within σ m _
  · exact angleReference_within σ m _
  · simp only [flags_within, verbose_within, pushEscaped_within]
    split
    · rfl
    · cases m.pushEscaped _ <;> rfl
  · simp only [flags_within, push_within]
    rfl
  · simp only [flags_within, push_within]
    cases set m.flags.caseless s <;> rfl
  · simp only [flags_within, push_within]
    rfl
  · simp only [flags_within, push_within]
    rfl
  · exact repeatLast_within σ m _ _
  · exact repeatLast_within σ m _ _
  · exact repeatLast_within σ m _ _
  · simp only [verbose_within, pushChar_within, repeatLast_within]
    split
    · rfl
    · cases checkTolerance m.verbose s <;> rfl
    · rfl
  · simp only [pushChar_within]
    rfl

/-! ## The sequence as a whole -/

theorem length_pastBlanks_le (comment : Bool) (s : Text) : (pastBlanks comment s).length ≤ s.length := by
  fun_induction pastBlanks comment s with
  | case1 => exact le_rfl
  | case2 c rest ih => exact ih.trans (Nat.le_succ _)
  | case3 c rest _ ih => exact ih.trans (Nat.le_succ _)
  | case4 rest _ ih => exact ih.trans (Nat.le_succ _)
  | case5 c rest => exact le_rfl

theorem length_lt_of_next? {verbose : Bool} {s rest : Text} {c : Char} (h : next? verbose s = some (c, rest)) :
    rest.length < s.length := by
  have hskip : (skip verbose s).length ≤ s.length := by
    unfold skip
    split
    · exact length_pastBlanks_le false s
    · exact le_rfl
  unfold next? at h
  split at h
  · cases h
  · rename_i hs
    obtain ⟨rfl, rfl⟩ := Prod.mk.inj (Option.some.inj h)
    rw [hs] at hskip
    exact hskip

/-- one element that neither ends a branch nor closes a parenthesis -/
theorem untilClosed_of_step {m n : Machine} {c : Char} {s rest : Text} (hf : m.flags = []) (hc : c ≠ ')' ∧ c ≠ '|')
    (h : m.step c s = .ok (n, rest)) (hl : rest.length ≤ s.length) :
    m.untilClosed (c :: s) = n.untilClosed rest := by
  have hlt : rest.length < (c :: s).length := Nat.lt_succ_of_le hl
  rw [untilClosed, verbose_of_flags hf]
  simp only [next?_false_cons, hc, and_false, if_false, h, hlt, if_true]

/-- **A sequence up to its closing parenthesis is read in surroundings as it is on its own** -/
theorem run_within {m n : Machine} {s rest : Text} (h : m.untilClosed s = some (n, rest)) : ∃ t,
    n.frames = [] ∧ next? n.verbose t = some (')', rest) ∧ (m.within σ).run s = (n.within σ).run t := by
  fun_induction untilClosed m s with
  | case1 m s hnext => cases h
  | case2 m s c rest' hnext hclose =>
    obtain ⟨rfl, rfl⟩ := Prod.mk.inj (Option.some.inj h)
    obtain ⟨hframes, rfl⟩ := hclose
    exact ⟨s, hframes, hnext, rfl⟩
  | case3 m s c rest' hnext hclose hbranch => cases h
  | case4 m s c rest' hnext hclose hbranch e hstep => cases h
  | case5 m s c rest' hnext hclose hbranch m' rest'' hstep hlt ih =>
    have hwithin : (m.within σ).step c rest' = .ok (m'.within σ, rest'') := by
      rw [step_within σ m ?_ rest', hstep]
      · rfl
      · intro hm
        exact ⟨fun hc => hclose ⟨hm, hc⟩, fun hc => hbranch ⟨hm, hc⟩⟩
    have hrun : (m.within σ).run s = (m'.within σ).run rest'' := by
      rw [run, verbose_within, hnext]
      simp only [hwithin, hlt, if_true]
    rw [hrun]
    exact ih h
  | case6 m s c rest' hnext hclose hbranch m' rest'' hstep hlt => cases h

/-- a sequence that starts without branches has none at its closing parenthesis -/
theorem branches_of_untilClosed {m n : Machine} {s rest : Text} (hm : m.within .unbranched = m)
    (h : m.untilClosed s = some (n, rest)) : n.within .unbranched = n := by
  fun_induction untilClosed m s with
  | case1 m s hnext => cases h
  | case2 m s c rest' hnext hclose =>
    obtain ⟨rfl, rfl⟩ := Prod.mk.inj (Option.some.inj h)
    exact hm
  | case3 m s c rest' hnext hclose hbranch => cases h
  | case4 m s c rest' hnext hclose hbranch e hstep => cases h
  | case5 m s c rest' hnext hclose hbranch m' rest'' hstep hlt ih =>
    have hwithin := step_within .unbranched m (c := c)
      (fun hf => ⟨fun hc => hclose ⟨hf, hc⟩, fun hc => hbranch ⟨hf, hc⟩⟩) rest'
    rw [hm, hstep] at hwithin
    exact ih (Prod.mk.inj (Except.ok.inj hwithin)).1.symm h
  | case6 m s c rest' hnext hclose hbranch m' rest'' hstep hlt => cases h

/-- the machine behind the group in which another one has read its sequence, with elements in front of it -/
def closed (front : List Expr) (n : Machine) : Machine :=
  ⟨.push .start (.ofSequence (front ++ n.sequence.elements.reverse)), [], [], n.groups, n.names⟩

/-- **A sequence in a group behind other elements** is read as these and its own, in one sequence -/
theorem run_behind (front : List Expr) {m n : Machine} {s rest : Text} (hm : m.within .unbranched = m)
    (h : m.untilClosed s = some (n, rest)) : (m.within (.behind front)).run s = (n.closed front).run rest := by
  obtain ⟨t, hframes, hnext, hrun⟩ := run_within (.behind front) h
  have hbranches : n.sequence.branches = [] := by
    have hn := congrArg (fun m => m.sequence.branches) (branches_of_untilClosed hm h)
    simp only [within, hframes, if_true] at hn
    exact hn.symm
  have hclose : (Surroundings.adapt (.behind front) n.sequence).close =
      .ofSequence (front ++ n.sequence.elements.reverse) := by
    apply Sequence.close_of_elements
    · exact hbranches
    · simp [Surroundings.behind, Sequence.elements]
  have hleave : (n.within (.behind front)).leave = .ok (n.closed front) := by
    simp only [leave, within, hframes, framesWithin, if_true, closed, ← hclose]
    rfl
  have hstep : (n.within (.behind front)).step ')' rest = .ok (n.closed front, rest) := by
    simp only [step, hleave, Except.map]
  rw [hrun, run, verbose_within, hnext]
  simp only [hstep, length_lt_of_next? hnext, if_true]

end Machine

end UriRouting.Regex
