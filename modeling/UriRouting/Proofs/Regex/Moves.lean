/-
What one element can do to the reading machine. A closing parenthesis leaves the innermost frame (`leave`); every other
element makes one of a few moves (`Moves`), none of which closes a frame, takes a name away, brings in a reference that the
element does not speak of, or opens a group under a name that it does not give.

- `step_moves`: each element of a source is one of these.
- `frames_of_step`, `isNumbered_of_step`, `refers_of_step`: what every element keeps, read off from the moves.
-/
import UriRouting.Proofs.Regex.Enclosing
import UriRouting.Proofs.Regex.Reading

namespace UriRouting.Regex

/-- nothing is within the expression -/
def Expr.IsLeaf : Expr → Prop
  | empty | char _ | anchor _ | backref _ _ => True
  | _ => False

/-! ## References -/

theorem references_quantify (e : Expr) (limits : Limits) (greed : Greed) :
    (quantify e limits greed).references = e.references := by
  unfold quantify
  split
  · rfl
  · cases greed <;> rfl

theorem Opening.references_close (o : Opening) (e : Expr) : (o.close e).references = e.references := by
  cases o <;> rfl

/-- an element of the sequence refers to the group, or one of a finished branch does -/
def Sequence.Refers (q : Sequence) (r : Reference) : Prop := ∃ e ∈ q.elements ++ q.branches, r ∈ e.references

namespace Sequence

variable {q : Sequence} {r : Reference}

theorem refers_push {e : Expr} : (q.push e).Refers r ↔ r ∈ e.references ∨ q.Refers r := by
  simp only [Refers, push, elements, Option.toList_some, List.cons_append, List.nil_append, List.mem_cons, exists_eq_or_imp]

theorem refers_nextBranch : q.nextBranch.Refers r ↔ q.Refers r := by
  simp only [Refers, nextBranch, elements, Option.toList_none, List.nil_append, List.mem_cons, List.mem_append, or_and_right,
    exists_or, exists_eq_left, Expr.references_ofSequence, List.mem_flatMap, List.mem_reverse]

theorem mem_references_close : r ∈ q.close.references ↔ q.Refers r := by
  rw [← refers_nextBranch, close, Expr.references_ofBranches]
  simp only [Refers, List.mem_flatMap, List.mem_reverse]
  rfl

end Sequence

namespace Machine

/-- what the machine has read refers to the group -/
def Refers (m : Machine) (r : Reference) : Prop := m.sequence.Refers r ∨ ∃ f ∈ m.frames, f.sequence.Refers r

/-! ## Names -/

/-- the source of the name that a parenthesis gives a group, read from behind it -/
def parenthesisNaming? (m : Machine) (s : Text) : Option Text :=
  match s with
  | '?' :: '<' :: rest =>
    match next? m.verbose rest with
    | some ('=', _) => none
    | some ('!', _) => none
    | _ => some rest
  | '?' :: 'P' :: rest =>
    match next? m.verbose rest with
    | some ('<', rest) => some rest
    | _ => none
  | _ => none

/-- the source of the name that an element gives a group, its first character read -/
def naming? (m : Machine) (c : Char) (s : Text) : Option Text := if c = '(' then m.parenthesisNaming? s else none

/-! ## Moves -/

/-- what an element other than a closing parenthesis does, given what it speaks of and the source of the name it gives -/
inductive Moves (m : Machine) (spoken : Option Reference) (named : Option Text) : Machine → Prop
  | push (e : Expr) (hleaf : e.IsLeaf) (h : ∀ r ∈ e.references, r ∈ spoken) : Moves m spoken named (m.push e)
  | nextBranch : Moves m spoken named { m with sequence := m.sequence.nextBranch }
  | quantify {e : Expr} (limits : Limits) (greed : Greed) (h : m.sequence.last = some e) : Moves m spoken named
      { m with sequence := { m.sequence with settled := quantify e limits greed :: m.sequence.settled, last := none } }
  | setFlags (flags : Flags) : Moves m spoken named { m with flags }
  | enter (o : Opening) (flags : Flags) (ho : ∀ k, o ≠ .capture k) : Moves m spoken named { m.enter o with flags }
  | enterGroup : Moves m spoken named m.enterGroup
  | enterNamed {source : Text} (h : named = some source) : Moves m spoken named (m.enterNamed (groupText m.verbose source).1)

variable {m n : Machine} {spoken : Option Reference} {named : Option Text} {s rest : Text}

theorem Moves.stay (m : Machine) (spoken : Option Reference) (named : Option Text) : Moves m spoken named m :=
  .setFlags m.flags

theorem Moves.pushChar (m : Machine) (spoken : Option Reference) (named : Option Text) (k : ℕ) :
    Moves m spoken named (m.pushChar k) := .push _ trivial fun r hr => absurd hr (by simp [Expr.references])

theorem Moves.enterPlainly (m : Machine) (spoken : Option Reference) (named : Option Text) {o : Opening}
    (ho : ∀ k, o ≠ .capture k) : Moves m spoken named (m.enter o) := .enter o m.flags ho

theorem Moves.frames (h : Moves m spoken named n) : m.frames.length ≤ n.frames.length := by
  cases h with
  | enterNamed _ =>
    unfold Machine.enterNamed
    split <;> exact Nat.le_succ _
  | enter o flags _ => exact Nat.le_succ _
  | enterGroup => exact Nat.le_succ _
  | _ => exact le_rfl

theorem Moves.isNumbered (h : Moves m spoken named n) (hm : m.IsNumbered) : n.IsNumbered := by
  cases h with
  | enterNamed _ =>
    unfold Machine.enterNamed
    split
    · exact hm
    · intro x hx
      rcases List.mem_append.1 hx with hx | hx
      · exact hm x hx
      · rw [List.mem_singleton.1 hx]
        exact Nat.succ_pos _
  | _ => exact hm

/-- an open parenthesis refers to nothing yet -/
theorem refers_enter {o : Opening} {r : Reference} (h : (m.enter o).Refers r) : m.Refers r := by
  rcases h with ⟨e, he, -⟩ | ⟨f, hf, hr⟩
  · exact absurd he List.not_mem_nil
  · rcases List.mem_cons.1 hf with rfl | hf
    · exact .inl hr
    · exact .inr ⟨f, hf, hr⟩

theorem Moves.refers (h : Moves m spoken named n) {r : Reference} (hr : n.Refers r) : m.Refers r ∨ r ∈ spoken := by
  cases h with
  | push e _ he =>
    rcases hr with hr | hr
    · rcases Sequence.refers_push.1 hr with hr | hr
      · exact .inr (he r hr)
      · exact .inl (.inl hr)
    · exact .inl (.inr hr)
  | nextBranch =>
    rcases hr with hr | hr
    · exact .inl (.inl (Sequence.refers_nextBranch.1 hr))
    · exact .inl (.inr hr)
  | @quantify e limits greed hlast =>
    rcases hr with ⟨x, hx, hr⟩ | hr
    · refine .inl (.inl ?_)
      rw [Sequence.elements, Option.toList_none, List.nil_append, List.cons_append] at hx
      rcases List.mem_cons.1 hx with rfl | hx
      · rw [references_quantify] at hr
        exact ⟨e, by simp [Sequence.elements, hlast], hr⟩
      · refine ⟨x, ?_, hr⟩
        rw [Sequence.elements, List.append_assoc]
        exact List.mem_append_right _ hx
    · exact .inl (.inr hr)
  | setFlags flags => exact .inl hr
  | enter o flags _ => exact .inl (refers_enter (o := o) hr)
  | enterGroup => exact .inl (refers_enter (o := .capture (m.groups + 1)) hr)
  | enterNamed _ =>
    unfold Machine.enterNamed at hr
    split at hr
    · exact .inl (refers_enter hr)
    · exact .inl (refers_enter (o := .capture (m.groups + 1)) hr)

/-! ## What is left -/

theorem leave_eq_ok (h : m.leave = .ok n) : ∃ f, m.frames = f :: n.frames ∧
    n = { m with sequence := f.sequence.push (f.opening.close m.sequence.close), frames := n.frames, flags := f.flags } := by
  unfold leave at h
  split at h
  · cases h
  · rename_i f fs hframes
    obtain rfl := Except.ok.inj h
    exact ⟨f, hframes, rfl⟩

theorem refers_of_leave (h : m.leave = .ok n) {r : Reference} (hr : n.Refers r) : m.Refers r := by
  obtain ⟨f, hframes, hn⟩ := leave_eq_ok h
  rcases hr with hr | ⟨g, hg, hr⟩
  · rw [hn] at hr
    rcases Sequence.refers_push.1 hr with hr | hr
    · rw [Opening.references_close] at hr
      exact .inl (Sequence.mem_references_close.1 hr)
    · exact .inr ⟨f, hframes ▸ List.mem_cons_self, hr⟩
  · exact .inr ⟨g, hframes ▸ List.mem_cons_of_mem f hg, hr⟩

/-! ## Each element is a move -/

theorem moves_of_ok {k : Machine} {t : Text} (h : Except.ok (k, t) = (Except.ok (n, rest) : Except Fault (Machine × Text)))
    (hk : Moves m spoken named k) : Moves m spoken named n := by
  obtain ⟨rfl, -⟩ := Prod.mk.inj (Except.ok.inj h)
  exact hk

theorem moves_of_repeatLast {limits : Limits} (h : m.repeatLast limits s = .ok (n, rest)) : Moves m spoken named n := by
  unfold repeatLast at h
  split at h
  · cases h
  · rename_i e hlast
    exact moves_of_ok h (.quantify _ _ hlast)

theorem moves_of_pushReference {r : Reference} (h : m.pushReference r = .ok n) : Moves m (some r) named n := by
  unfold pushReference at h
  split at h
  · cases h
  · obtain rfl := Except.ok.inj h
    refine .push _ trivial fun r' hr' => ?_
    obtain rfl : r' = r := List.mem_singleton.1 hr'
    rfl

theorem moves_of_pushEscaped {e : Escaped} (h : m.pushEscaped e = .ok n) (he : ∀ r, e = .reference r → r ∈ spoken) :
    Moves m spoken named n := by
  cases e with
  | code k => exact Except.ok.inj h ▸ .pushChar _ _ _ _
  | item i => exact Except.ok.inj h ▸ .push _ trivial fun r hr => absurd hr List.not_mem_nil
  | anchor a => exact Except.ok.inj h ▸ .push _ trivial fun r hr => absurd hr List.not_mem_nil
  | reference r =>
    obtain rfl : spoken = some r := he r rfl
    exact moves_of_pushReference h

theorem moves_of_flagGroup (h : m.flagGroup s = .ok (n, rest)) : Moves m spoken named n := by
  unfold flagGroup at h
  split at h
  · cases h
  · simp only at h
    split at h
    · exact moves_of_ok h (.enter _ _ (by simp))
    · exact moves_of_ok h (.setFlags _)
    · cases h

theorem moves_of_namedGroup (h : m.namedGroup s = .ok (n, rest)) : Moves m spoken (some s) n := by
  unfold namedGroup at h
  split at h
  · cases h
  · rename_i name behind hname
    have htext : (groupText m.verbose s).1 = name := by
      unfold groupName at hname
      simp only at hname
      split at hname
      · exact congrArg Prod.fst (Except.ok.inj hname)
      · cases hname
    split at h
    · cases h
    · exact moves_of_ok h (htext ▸ .enterNamed rfl)

theorem moves_of_namedReference (h : m.namedReference s = .ok (n, rest)) :
    Moves m ((groupReference m.verbose s).toOption.map Prod.fst) named n := by
  unfold namedReference at h
  split at h
  · cases h
  · rename_i r more hreference
    split at h
    · cases h
    · obtain ⟨n', hn', heq⟩ := Results.map_eq_ok_iff.1 h
      obtain ⟨rfl, -⟩ := Prod.mk.inj heq
      rw [hreference]
      exact moves_of_pushReference hn'

theorem moves_of_angleReference (h : m.angleReference s = .ok (n, rest)) :
    Moves m ((Regex.angleReference m.verbose s).toOption.map Prod.fst) named n := by
  unfold angleReference at h
  split at h
  · rename_i r more hreference
    split at h
    · exact moves_of_ok h (.pushChar _ _ _ _)
    · obtain ⟨rfl, -⟩ := Prod.mk.inj (Except.ok.inj h)
      rw [hreference]
      refine .push _ trivial fun r' hr' => ?_
      obtain rfl : r' = r := List.mem_singleton.1 hr'
      rfl
  · cases h
  · exact moves_of_ok h (.pushChar _ _ _ _)

theorem moves_of_parenthesis (h : m.parenthesis s = .ok (n, rest)) :
    Moves m (m.parenthesisSpoken? s) (m.parenthesisNaming? s) n := by
  unfold parenthesis at h
  split at h
  · split at h
    · exact moves_of_ok h (.enterPlainly _ _ _ (by simp))
    · exact moves_of_ok h (.enterPlainly _ _ _ (by simp))
    · rename_i s _ hahead hbehind
      have hnaming : m.parenthesisNaming? ('?' :: '<' :: s) = some s := by simp only [parenthesisNaming?]
      rw [hnaming]
      exact moves_of_namedGroup h
  · exact moves_of_ok h (.enterPlainly _ _ _ (by simp))
  · exact moves_of_ok h (.enterPlainly _ _ _ (by simp))
  · exact moves_of_ok h (.enterPlainly _ _ _ (by simp))
  · split at h
    · exact moves_of_ok h (.stay _ _ _)
    · cases h
  · split at h
    · rename_i hnext
      simp only [parenthesisNaming?, hnext]
      exact moves_of_namedGroup h
    · rename_i hnext
      simp only [parenthesisSpoken?, hnext]
      exact moves_of_namedReference h
    · cases h
  · exact moves_of_flagGroup h
  · split at h
    · cases h
    · exact moves_of_ok h .enterGroup
  · exact moves_of_ok h .enterGroup

/-- **Each element is a move, or leaves a frame** -/
theorem step_moves {c : Char} (h : m.step c s = .ok (n, rest)) :
    c = ')' ∧ m.leave = .ok n ∨ c ≠ ')' ∧ Moves m (m.spoken? c s) (m.naming? c s) n := by
  have hchar : ∀ {test : CharTest} (r : Reference), r ∈ (Expr.char test).references → r ∈ m.spoken? c s :=
    fun r hr => absurd hr List.not_mem_nil
  have hanchor : ∀ {a : Anchor} (r : Reference), r ∈ (Expr.anchor a).references → r ∈ m.spoken? c s :=
    fun r hr => absurd hr List.not_mem_nil
  by_cases hclose : c = ')'
  · subst hclose
    obtain ⟨n', hn', heq⟩ := Results.map_eq_ok_iff.1 (show m.leave.map (·, s) = .ok (n, rest) from h)
    obtain ⟨rfl, -⟩ := Prod.mk.inj heq
    exact .inl ⟨rfl, hn'⟩
  · refine .inr ⟨hclose, ?_⟩
    unfold step at h
    split at h
    · exact moves_of_ok h .nextBranch
    · exact absurd rfl hclose
    · exact moves_of_parenthesis h
    · exact moves_of_angleReference h
    · split at h
      · cases h
      · rename_i hg _ e more hescape
        obtain ⟨n', hn', heq⟩ := Results.map_eq_ok_iff.1 h
        obtain ⟨rfl, -⟩ := Prod.mk.inj heq
        apply moves_of_pushEscaped hn'
        rintro r rfl
        rw [spoken?, hescape]
        · rfl
        · exact hg
    · exact moves_of_ok h (.push _ trivial hchar)
    · obtain ⟨x, -, heq⟩ := Results.map_eq_ok_iff.1 h
      obtain ⟨rfl, -⟩ := Prod.mk.inj heq
      exact .push _ trivial hchar
    · exact moves_of_ok h (.push _ trivial hanchor)
    · exact moves_of_ok h (.push _ trivial hanchor)
    · exact moves_of_repeatLast h
    · exact moves_of_repeatLast h
    · exact moves_of_repeatLast h
    · split at h
      · cases h
      · obtain ⟨x, -, heq⟩ := Results.map_eq_ok_iff.1 h
        obtain ⟨rfl, -⟩ := Prod.mk.inj heq
        exact .push _ trivial hchar
      · exact moves_of_repeatLast h
    · exact moves_of_ok h (.push _ trivial hchar)

variable {c : Char}

/-- one closing parenthesis closes one frame, and no other element closes any -/
theorem frames_of_step (h : m.step c s = .ok (n, rest)) :
    m.frames.length ≤ n.frames.length + if c = ')' then 1 else 0 := by
  rcases step_moves h with ⟨rfl, hleave⟩ | ⟨hc, hmoves⟩
  · obtain ⟨f, hframes, -⟩ := leave_eq_ok hleave
    rw [hframes, List.length_cons, if_pos rfl]
  · rw [if_neg hc]
    exact hmoves.frames

theorem isNumbered_of_step (h : m.step c s = .ok (n, rest)) (hm : m.IsNumbered) : n.IsNumbered := by
  rcases step_moves h with ⟨-, hleave⟩ | ⟨-, hmoves⟩
  · obtain ⟨f, -, hn⟩ := leave_eq_ok hleave
    rw [hn]
    exact hm
  · exact hmoves.isNumbered hm

/-- **What an element refers to it speaks of** -/
theorem refers_of_step (h : m.step c s = .ok (n, rest)) {r : Reference} (hr : n.Refers r) :
    m.Refers r ∨ r ∈ m.spoken? c s := by
  rcases step_moves h with ⟨-, hleave⟩ | ⟨-, hmoves⟩
  · exact .inl (refers_of_leave hleave hr)
  · exact hmoves.refers hr

end Machine

end UriRouting.Regex
