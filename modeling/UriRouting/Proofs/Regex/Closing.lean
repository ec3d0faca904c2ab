/-
The reading machine in front of a closing parenthesis. An element is read as it is without the tail (`step_tail`); one that
is unfinished fails without the tail, and with it may end in the midst of it.

So a source in parentheses that were opened before it, and are closed by the tail behind it, is read as on its own.
-/
import UriRouting.Proofs.Regex.Moves
import UriRouting.Proofs.Regex.TailSets

namespace UriRouting.Regex

open Results

variable {tail s : Text} {m n : Machine}

theorem IsTail.next? {c : Char} (htail : IsTail (c :: tail)) (v : Bool) : Regex.next? v (c :: tail) = some (c, tail) := by
  rcases htail c List.mem_cons_self with rfl | rfl | rfl <;> exact next?_of_counts v (by decide) (by decide) tail

theorem IsTail.of_suffix (htail : IsTail tail) (h : s <:+ tail) : IsTail s := fun c hc => htail c (h.mem hc)

theorem suffix_of_greed (htail : IsTail tail) (v : Bool) : (greed v tail).2 <:+ tail := by
  rcases tail with _ | ⟨c, tail⟩
  · cases v <;> exact List.suffix_rfl
  · unfold greed
    rw [htail.next? v]
    split
    · rename_i heq
      exact (Prod.mk.inj (Option.some.inj heq)).2 ▸ List.suffix_cons _ _
    · rename_i heq
      exact (Prod.mk.inj (Option.some.inj heq)).2 ▸ List.suffix_cons _ _
    · exact List.suffix_rfl

namespace Machine

/-! ## One element -/

theorem repeatLast_tail (htail : IsTail tail) (limits : Limits) (s : Text) :
    m.repeatLast limits (s ++ ')' :: tail) = ahead (')' :: tail) (m.repeatLast limits s) := by
  rw [repeatLast, repeatLast, greed_tail htail]
  cases m.sequence.last <;> rfl

theorem namedGroup_tail (htail : IsTail tail) (s : Text) :
    m.namedGroup (s ++ ')' :: tail) = ahead (')' :: tail) (m.namedGroup s) := by
  have hname := groupName_extends htail (.append m.verbose tail s)
  rw [namedGroup, namedGroup]
  generalize groupName m.verbose s = x at hname ⊢
  generalize groupName m.verbose (s ++ ')' :: tail) = y at hname ⊢
  cases hname with
  | error f => rfl
  | @ok name r r' hrest =>
    simp only [accept?_extends htail (by decide : '>' ≠ ')') hrest]
    cases accept? m.verbose '>' r <;> rfl

theorem namedReference_tail (htail : IsTail tail) (s : Text) :
    Mirrors tail (m.namedReference s) (m.namedReference (s ++ ')' :: tail)) := by
  have hreference := groupReference_extends htail (.append m.verbose tail s)
  rw [namedReference, namedReference]
  generalize groupReference m.verbose s = x at hreference ⊢
  generalize groupReference m.verbose (s ++ ')' :: tail) = y at hreference ⊢
  cases hreference with
  | error f => exact .of_error
  | @ok r t t' hrest =>
    rcases accept?_close htail hrest with ⟨rest, h, h'⟩ | ⟨h, h' | h'⟩
    · simp only [h, h']
      apply Mirrors.of_eq
      cases m.pushReference r <;> rfl
    · simp only [h, h']
      exact .of_error
    · simp only [h, h']
      intro a t hy
      obtain ⟨n, -, heq⟩ := map_eq_ok_iff.1 hy
      exact (Prod.mk.inj heq).2 ▸ List.suffix_rfl

theorem angleReference_tail (htail : IsTail tail) (s : Text) :
    m.angleReference (s ++ ')' :: tail) = ahead (')' :: tail) (m.angleReference s) := by
  rw [angleReference, angleReference, Regex.angleReference_tail htail]
  rcases Regex.angleReference m.verbose s with f | ⟨r, rest⟩
  · cases f <;> rfl
  · simp only [ahead, Except.map]
    split <;> rfl

theorem flagGroup_tail (htail : IsTail tail) (s : Text) :
    Mirrors tail (m.flagGroup s) (m.flagGroup (s ++ ')' :: tail)) := by
  have hchange := flagChange_extends htail (.append m.verbose tail s)
  rw [flagGroup, flagGroup]
  generalize flagChange m.verbose s = x at hchange ⊢
  generalize flagChange m.verbose (s ++ ')' :: tail) = y at hchange ⊢
  cases hchange with
  | error f => exact .of_error
  | @ok change r r' hrest =>
    simp only [accept?_extends htail (by decide : ':' ≠ ')') hrest]
    cases accept? m.verbose ':' r with
    | some rest => exact Mirrors.of_eq rfl
    | none =>
      rcases accept?_close htail hrest with ⟨rest, h, h'⟩ | ⟨h, h' | h'⟩
      · simp only [h, h', Option.map_none]
        exact Mirrors.of_eq rfl
      · simp only [h, h', Option.map_none]
        exact .of_error
      · simp only [h, h', Option.map_none]
        intro a t hy
        obtain ⟨-, rfl⟩ := Prod.mk.inj (Except.ok.inj hy)
        exact List.suffix_rfl

/-- a parenthesis that no question mark and no star follow -/
theorem parenthesis_of_group (h : ∀ c ∈ s.head?, c ∉ ['?', '*']) : m.parenthesis s = .ok (m.enterGroup, s) := by
  unfold parenthesis
  split <;> first | rfl | exact absurd (List.mem_cons_self) (h _ rfl) | exact absurd (by simp) (h '*' rfl)

/-- an angle bracket behind the question mark: a look behind, or a named group -/
theorem parenthesis_angle_tail (htail : IsTail tail) (s : Text) :
    Mirrors tail (m.parenthesis ('?' :: '<' :: s)) (m.parenthesis ('?' :: '<' :: s ++ ')' :: tail)) := by
  apply Mirrors.of_eq
  simp only [List.cons_append, parenthesis]
  have hnamed := namedGroup_tail (m := m) htail s
  rcases next?_extends htail (.append m.verbose tail s) with ⟨c, rest, h, h'⟩ | ⟨h, h' | h'⟩
  · simp only [h, h']
    by_cases hlook : c = '=' ∨ c = '!'
    · rcases hlook with rfl | rfl <;> rfl
    · obtain ⟨heq, hne⟩ := not_or.1 hlook
      split
      · exact absurd (Prod.mk.inj (Option.some.inj ‹_›)).1 heq
      · exact absurd (Prod.mk.inj (Option.some.inj ‹_›)).1 hne
      · split
        · exact absurd (Prod.mk.inj (Option.some.inj ‹_›)).1 heq
        · exact absurd (Prod.mk.inj (Option.some.inj ‹_›)).1 hne
        · exact hnamed
  · simp only [h, h']
    exact hnamed
  · simp only [h, h']
    exact hnamed

/-- a `P` behind the question mark: a named group, or a named back-reference -/
theorem parenthesis_letter_tail (htail : IsTail tail) (s : Text) :
    Mirrors tail (m.parenthesis ('?' :: 'P' :: s)) (m.parenthesis ('?' :: 'P' :: s ++ ')' :: tail)) := by
  simp only [List.cons_append, parenthesis]
  rcases next?_extends htail (.append m.verbose tail s) with ⟨c, rest, h, h'⟩ | ⟨h, h' | h'⟩
  · simp only [h, h']
    by_cases hname : c = '<'
    · subst hname
      exact .of_eq (namedGroup_tail htail rest)
    · by_cases hreference : c = '='
      · subst hreference
        exact namedReference_tail htail rest
      · apply Mirrors.of_eq
        split <;> split <;> simp_all [ahead, Except.map]
  · simp only [h, h']
    exact .of_error
  · simp only [h, h']
    exact .of_error

theorem parenthesis_comment_tail (tail s : Text) :
    Mirrors tail (m.parenthesis ('?' :: '#' :: s)) (m.parenthesis ('?' :: '#' :: s ++ ')' :: tail)) := by
  simp only [List.cons_append, parenthesis]
  rcases pastComment_tail tail s with ⟨rest, h, h'⟩ | ⟨h, h'⟩
  · simp only [h, h']
    exact .of_eq rfl
  · simp only [h]
    intro a t hy
    split at hy
    · obtain ⟨-, rfl⟩ := Prod.mk.inj (Except.ok.inj hy)
      exact h' _ ‹_›
    · cases hy

/-- **What a parenthesis begins is read the same**; a comment, a flag group or a back-reference may take the tail's -/
theorem parenthesis_tail (htail : IsTail tail) (s : Text) :
    Mirrors tail (m.parenthesis s) (m.parenthesis (s ++ ')' :: tail)) := by
  rcases s with _ | ⟨c, s⟩
  · exact .of_eq rfl
  by_cases hquery : c = '?'
  · subst hquery
    by_cases hsign : ∀ d ∈ s.head?, d ∉ ['<', '=', '!', '>', '#', 'P']
    · have hsign' : ∀ d ∈ (s ++ ')' :: tail).head?, d ∉ ['<', '=', '!', '>', '#', 'P'] := by
        cases s with
        | nil =>
          intro d hd
          obtain rfl : ')' = d := Option.some.inj hd
          decide
        | cons d s => exact hsign
      rw [List.cons_append, parenthesis_of_flags hsign, parenthesis_of_flags hsign']
      exact flagGroup_tail htail s
    · push Not at hsign
      obtain ⟨d, hd, hmem⟩ := hsign
      obtain ⟨s, rfl⟩ := List.head?_eq_some_iff.1 hd
      simp only [List.mem_cons, List.not_mem_nil, or_false] at hmem
      rcases hmem with rfl | rfl | rfl | rfl | rfl | rfl
      · exact parenthesis_angle_tail htail s
      · exact .of_eq rfl
      · exact .of_eq rfl
      · exact .of_eq rfl
      · exact parenthesis_comment_tail tail s
      · exact parenthesis_letter_tail htail s
  · by_cases hstar : c = '*'
    · subst hstar
      apply Mirrors.of_eq
      rw [List.cons_append, parenthesis, parenthesis, (groupText_extends htail (.append m.verbose tail s)).1]
      split <;> rfl
    · have hgroup : ∀ t, m.parenthesis (c :: t) = .ok (m.enterGroup, c :: t) := by
        intro t
        apply parenthesis_of_group
        intro d hd
        obtain rfl : c = d := Option.some.inj hd
        simp [hquery, hstar]
      rw [List.cons_append, hgroup, hgroup]
      exact .of_eq rfl

/-- an escape is read the same; a backslash at the end takes the closing parenthesis -/
theorem backslash_tail (htail : IsTail tail) (s : Text) :
    Mirrors tail (m.step '\\' s) (m.step '\\' (s ++ ')' :: tail)) := by
  have hescape : ∀ t : Text, t.head? ≠ some 'g' → m.step '\\' t =
      (escape m.flags.octalWrap m.verbose false t).bind fun x => (m.pushEscaped x.1).map (·, x.2) := by
    intro t ht
    have hother : ∀ rest, t = 'g' :: rest → False := by
      rintro rest rfl
      exact ht rfl
    simp only [step]
    rcases escape m.flags.octalWrap m.verbose false t with f | ⟨e, rest⟩ <;> rfl
  by_cases hg : s.head? = some 'g'
  · obtain ⟨s, rfl⟩ := List.head?_eq_some_iff.1 hg
    exact .of_eq (angleReference_tail htail s)
  · have hg' : (s ++ ')' :: tail).head? ≠ some 'g' := by
      cases s with
      | nil => simp
      | cons c s => exact hg
    have hread := escape_tail (v := m.verbose) htail m.flags.octalWrap false s
    rw [hescape s hg, hescape _ hg']
    rcases hs : escape m.flags.octalWrap m.verbose false s with f | ⟨e, rest⟩ <;> rw [hs] at hread
    · intro a t hy
      rcases heq : escape m.flags.octalWrap m.verbose false (s ++ ')' :: tail) with f | ⟨e, more⟩ <;> rw [heq] at hy
      · cases hy
      · obtain ⟨n, -, hpair⟩ := map_eq_ok_iff.1 hy
        exact (Prod.mk.inj hpair).2 ▸ hread _ _ heq
    · rw [show escape m.flags.octalWrap m.verbose false (s ++ ')' :: tail) = .ok (e, rest ++ ')' :: tail) from hread]
      apply Mirrors.of_eq
      cases hpushed : m.pushEscaped e <;> simp [Except.bind, Except.map, hpushed, ahead]

theorem bracket_tail (htail : IsTail tail) (s : Text) : Mirrors tail (m.step '[' s) (m.step '[' (s ++ ')' :: tail)) := by
  have hread := set_tail htail m.flags.caseless s
  rw [step, step]
  rcases hs : set m.flags.caseless s with f | ⟨t, rest⟩ <;> rw [hs] at hread
  · intro a t hy
    obtain ⟨x, hx, hpair⟩ := map_eq_ok_iff.1 hy
    exact (Prod.mk.inj hpair).2 ▸ hread _ _ hx
  · rw [show set m.flags.caseless (s ++ ')' :: tail) = .ok (t, rest ++ ')' :: tail) from hread]
    rfl

theorem brace_tail (htail : IsTail tail) (s : Text) :
    m.step '{' (s ++ ')' :: tail) = ahead (')' :: tail) (m.step '{' s) := by
  rw [step, step, limits?_tail htail]
  rcases limits? m.verbose s with f | _ | ⟨limits, rest⟩
  · rfl
  · simp only [Except.map, Option.map_none, checkTolerance_tail htail]
    cases checkTolerance m.verbose s <;> rfl
  · exact repeatLast_tail htail limits rest

/-- **An element is read the same in front of a closing parenthesis**; one that is unfinished there, and fails, may end in the
tail -/
theorem step_tail (htail : IsTail tail) (c : Char) (s : Text) :
    Mirrors tail (m.step c s) (m.step c (s ++ ')' :: tail)) := by
  by_cases hc : c ∈ ['|', ')', '(', '\\', '.', '[', '^', '$', '?', '*', '+', '{']
  · simp only [List.mem_cons, List.not_mem_nil, or_false] at hc
    rcases hc with rfl | rfl | rfl | rfl | rfl | rfl | rfl | rfl | rfl | rfl | rfl | rfl
    · exact .of_eq rfl
    · apply Mirrors.of_eq
      rw [step, step]
      cases m.leave <;> rfl
    · exact parenthesis_tail htail s
    · exact backslash_tail htail s
    · exact .of_eq rfl
    · exact bracket_tail htail s
    · exact .of_eq rfl
    · exact .of_eq rfl
    · exact .of_eq (repeatLast_tail htail _ s)
    · exact .of_eq (repeatLast_tail htail _ s)
    · exact .of_eq (repeatLast_tail htail _ s)
    · exact .of_eq (brace_tail htail s)
  · rw [step_char hc, step_char hc]
    exact .of_eq rfl

/-- one element within parentheses that the tail closes -/
theorem step_closing {ε : Enclosure} (htail : IsTail tail) {c : Char} {rest : Text} (h : m.step c s = .ok (n, rest))
    (hkeep : ∀ r ∈ m.spoken? c s, ε.Keeps r) (hm : m.IsNumbered) :
    (m.enclosed ε).step c (s ++ ')' :: tail) = .ok (n.enclosed ε, rest ++ ')' :: tail) := by
  have hclose : c = ')' → m.frames ≠ [] := by
    rintro rfl hframes
    simp [step, leave, hframes, Except.map] at h
  have hmirrors := step_tail (m := m.enclosed ε) htail c s
  rw [step_enclosed ε m hclose hkeep hm, h] at hmirrors
  exact hmirrors

/-! ## The source as a whole -/

/-- the references that a source speaks of, as far as it is read -/
def speaksOf (m : Machine) (s : Text) : List Reference :=
  match next? m.verbose s with
  | none => []
  | some (c, rest) =>
    (m.spoken? c rest).toList ++
      match m.step c rest with
      | .error _ => []
      | .ok (n, rest) => if rest.length < s.length then speaksOf n rest else []
termination_by s.length

theorem isNumbered_of_run (h : m.run s = .ok n) (hm : m.IsNumbered) : n.IsNumbered := by
  fun_induction run m s with
  | case1 m s hnext => exact Except.ok.inj h ▸ hm
  | case2 m s c rest hnext f hstep => cases h
  | case3 m s c rest hnext m' rest' hstep hlt ih => exact ih h (isNumbered_of_step hstep hm)
  | case4 m s c rest hnext m' rest' hstep hlt => cases h

/-- **What is referred to in the end the source spoke of** -/
theorem refers_of_run (h : m.run s = .ok n) {r : Reference} (hr : n.Refers r) : m.Refers r ∨ r ∈ m.speaksOf s := by
  fun_induction run m s with
  | case1 m s hnext => exact .inl (Except.ok.inj h ▸ hr)
  | case2 m s c rest hnext f hstep => cases h
  | case3 m s c rest hnext m' rest' hstep hlt ih =>
    rw [speaksOf, hnext]
    simp only [hstep, if_pos hlt, List.mem_append, Option.mem_toList]
    rcases ih h with hm' | hspoken
    · exact (refers_of_step hstep hm').imp_right .inl
    · exact .inr (.inr hspoken)
  | case4 m s c rest hnext m' rest' hstep hlt => cases h

/-- a run goes on within parentheses as it does on its own -/
theorem run_step_closing {ε : Enclosure} (htail : IsTail tail) {c : Char} {rest rest' : Text}
    (hnext : next? m.verbose s = some (c, rest)) (hstep : m.step c rest = .ok (n, rest'))
    (hkeep : ∀ r ∈ m.spoken? c rest, ε.Keeps r) (hm : m.IsNumbered) :
    (m.enclosed ε).run (s ++ ')' :: tail) =
      if rest'.length < s.length then (n.enclosed ε).run (rest' ++ ')' :: tail) else .error .unknownExtension := by
  have hlt : (rest' ++ ')' :: tail).length < (s ++ ')' :: tail).length ↔ rest'.length < s.length := by
    rw [List.length_append, List.length_append, Nat.add_lt_add_iff_right]
  rw [run, verbose_enclosed, next?_append hnext]
  simp only [step_closing htail hstep hkeep hm, hlt]

/-- **A source that is read to its end is read so within parentheses**: what is left there is the blanks and comments it ends
with, in front of the tail -/
theorem run_closing (h : m.run s = .ok n) (hm : m.IsNumbered) : ∃ blanks, next? n.verbose blanks = none ∧
    ∀ {ε : Enclosure} {tail : Text}, IsTail tail → (∀ r ∈ m.speaksOf s, ε.Keeps r) →
      (m.enclosed ε).run (s ++ ')' :: tail) = (n.enclosed ε).run (blanks ++ ')' :: tail) := by
  fun_induction run m s with
  | case1 m s hnext =>
    obtain rfl := Except.ok.inj h
    exact ⟨s, hnext, fun _ _ => rfl⟩
  | case2 m s c rest hnext f hstep => cases h
  | case3 m s c rest hnext m' rest' hstep hlt ih =>
    obtain ⟨blanks, hblanks, hrun⟩ := ih h (isNumbered_of_step hstep hm)
    refine ⟨blanks, hblanks, fun {ε tail} htail hkeep => ?_⟩
    rw [speaksOf, hnext] at hkeep
    simp only [hstep, if_pos hlt, List.mem_append, Option.mem_toList] at hkeep
    rw [← hrun htail fun r hr => hkeep r (.inr hr), run_step_closing htail hnext hstep (fun r hr => hkeep r (.inl hr)) hm,
      if_pos hlt]
  | case4 m s c rest hnext m' rest' hstep hlt => cases h

/-! ## What fails on its own -/

theorem suffix_of_step_mark {c : Char} {rest : Text} (htail : IsTail (c :: tail)) (h : m.step c tail = .ok (n, rest)) :
    rest <:+ tail := by
  rcases htail c List.mem_cons_self with rfl | rfl | rfl
  · obtain ⟨x, -, heq⟩ := map_eq_ok_iff.1 (show m.leave.map (·, tail) = .ok (n, rest) from h)
    exact (Prod.mk.inj heq).2 ▸ List.suffix_rfl
  · rw [step_char (by decide)] at h
    exact (Prod.mk.inj (Except.ok.inj h)).2 ▸ List.suffix_rfl
  · have hrepeat : m.repeatLast (0, some 1) tail = .ok (n, rest) := h
    unfold repeatLast at hrepeat
    split at hrepeat
    · cases hrepeat
    · have hsuffix := suffix_of_greed (htail.of_suffix (List.suffix_cons _ _)) m.verbose
      exact (Prod.mk.inj (Except.ok.inj hrepeat)).2 ▸ hsuffix

/-- a tail closes as many frames as there are closing parentheses in it, at most -/
theorem frames_of_run_tail (htail : IsTail tail) (h : m.run tail = .ok n) :
    m.frames.length ≤ n.frames.length + tail.count ')' := by
  fun_induction run m tail with
  | case1 m tail hnext =>
    rw [Except.ok.inj h]
    exact Nat.le_add_right _ _
  | case2 m tail c rest hnext f hstep => cases h
  | case3 m tail c rest hnext m' rest' hstep hlt ih =>
    obtain ⟨d, tail, rfl⟩ : ∃ d t, tail = d :: t := List.exists_cons_of_ne_nil (by rintro rfl; simp at hlt)
    rw [htail.next?] at hnext
    obtain ⟨rfl, rfl⟩ := Prod.mk.inj (Option.some.inj hnext)
    have hsuffix := suffix_of_step_mark htail hstep
    have hframes := frames_of_step hstep
    have hrest := ih (htail.of_suffix (hsuffix.trans (List.suffix_cons _ _))) h
    have hcount : rest'.count ')' ≤ tail.count ')' := hsuffix.sublist.count_le _
    simp only [List.count_cons, beq_iff_eq]
    omega
  | case4 m tail c rest hnext m' rest' hstep hlt => cases h

/-- **A source that fails on its own leaves a parenthesis open**, if it does not fail within them, unless it closes one that it
did not open: what is unfinished may end in the tail, but that has no parenthesis to spare -/
theorem frames_of_run_closing {ε : Enclosure} (htail : IsTail tail) {f : Fault} (h : m.run s = .error f)
    (hf : f ≠ .unbalancedParenthesis) (hm : m.IsNumbered) (hkeep : ∀ r ∈ m.speaksOf s, ε.Keeps r)
    (hcount : tail.count ')' < ε.frames.length) (hn : (m.enclosed ε).run (s ++ ')' :: tail) = .ok n) : n.frames ≠ [] := by
  fun_induction run m s with
  | case1 m s hnext => cases h
  | case2 m s c rest hnext f hstep =>
    obtain rfl := Except.error.inj h
    have hclose : c ≠ ')' := by
      rintro rfl
      have hleave := map_eq_error_iff.1 (show m.leave.map (·, rest) = .error f from hstep)
      unfold leave at hleave
      split at hleave
      · exact hf (Except.error.inj hleave).symm
      · cases hleave
    rw [speaksOf, hnext] at hkeep
    have hmirrors := step_tail (m := m.enclosed ε) htail c rest
    have hstep' : (m.enclosed ε).step c rest = .error f := by
      rw [step_enclosed ε m (absurd · hclose) (fun r hr => hkeep r (List.mem_append_left _ (Option.mem_toList.2 hr))) hm,
        hstep]
      rfl
    rw [hstep'] at hmirrors
    rw [run, verbose_enclosed, next?_append hnext] at hn
    simp only at hn
    split at hn
    · cases hn
    · rename_i k t hk
      split at hn
      · have hsuffix : t <:+ tail := hmirrors _ _ hk
        have hrun := frames_of_run_tail (htail.of_suffix hsuffix) hn
        have hframes := frames_of_step hk
        have hle : t.count ')' ≤ tail.count ')' := hsuffix.sublist.count_le _
        rw [if_neg hclose, enclosed, List.length_append] at hframes
        rw [← List.length_pos_iff]
        omega
      · cases hn
  | case3 m s c rest hnext m' rest' hstep hlt ih =>
    rw [speaksOf, hnext] at hkeep
    simp only [hstep, if_pos hlt, List.mem_append, Option.mem_toList] at hkeep
    rw [run_step_closing htail hnext hstep (fun r hr => hkeep r (.inl hr)) hm, if_pos hlt] at hn
    exact ih h (isNumbered_of_step hstep hm) (fun r hr => hkeep r (.inr hr)) hn
  | case4 m s c rest hnext m' rest' hstep hlt =>
    rw [speaksOf, hnext] at hkeep
    simp only [List.mem_append, Option.mem_toList] at hkeep
    rw [run_step_closing htail hnext hstep (fun r hr => hkeep r (.inl hr)) hm, if_neg hlt] at hn
    cases hn

/-! ## Sources in parentheses -/

/-- the source is read to an end within a comment: a closing parenthesis behind it would belong to the comment -/
def EndsInComment (m : Machine) (s : Text) : Prop := ∃ n, m.run s = .ok n ∧ m.run (s ++ [')']) = .ok n

/-- within parentheses that hold no group, nothing is raised -/
theorem enclosed_of_plain {ε : Enclosure} (hgroups : ε.groups = 0) (hnames : ε.names = []) (m : Machine) :
    m.enclosed ε = { m with frames := m.frames ++ ε.frames } := by
  have hframe : Frame.raise 0 = id := by
    funext f
    obtain ⟨o, flags, q⟩ := f
    rw [Frame.raise, Sequence.raise_zero]
    cases o <;> rfl
  have hname : raiseNames 0 m.names = m.names := List.map_id m.names
  simp only [enclosed, hgroups, hnames, Sequence.raise_zero, hframe, List.map_id, hname, Nat.add_zero, List.nil_append]

theorem keeps_of_plain {ε : Enclosure} (hgroups : ε.groups = 0) (hnames : ε.names = []) (r : Reference) : ε.Keeps r := by
  cases r with
  | number n => exact hgroups
  | name t =>
    rw [Enclosure.Keeps, hnames]
    rfl

theorem run_blanks {blanks : Text} (h : next? m.verbose (blanks ++ ')' :: tail) = some (')', tail)) :
    m.run (blanks ++ ')' :: tail) = m.run (')' :: tail) := by
  have hlt : tail.length < (blanks ++ ')' :: tail).length := by
    rw [List.length_append, List.length_cons]
    omega
  rw [run_close, run, h]
  simp only [step]
  cases m.leave with
  | error f => rfl
  | ok n => exact if_pos hlt

/-- what is left of a source that ends in a comment takes in the tail, and of no other -/
theorem run_close_cases (h : m.run s = .ok n) (hm : m.IsNumbered) :
    m.EndsInComment s ∧ (∀ {ε : Enclosure} {tail : Text}, IsTail tail → (∀ r ∈ m.speaksOf s, ε.Keeps r) →
      (m.enclosed ε).run (s ++ ')' :: tail) = .ok (n.enclosed ε)) ∨
    ¬m.EndsInComment s ∧ ∀ {ε : Enclosure} {tail : Text}, IsTail tail → (∀ r ∈ m.speaksOf s, ε.Keeps r) →
      (m.enclosed ε).run (s ++ ')' :: tail) = (n.enclosed ε).run (')' :: tail) := by
  obtain ⟨blanks, hblanks, hrun⟩ := run_closing h hm
  -- no parentheses at all are a special case
  have halone : m.run (s ++ [')']) = n.run (blanks ++ [')']) := by
    let ε : Enclosure := ⟨0, [], [], fun f hf => absurd hf List.not_mem_nil⟩
    have hplain : ∀ k : Machine, k.enclosed ε = k := by
      intro k
      rw [enclosed_of_plain rfl rfl, List.append_nil]
    have hnone := @hrun ε [] (fun c hc => absurd hc List.not_mem_nil) fun r _ => keeps_of_plain rfl rfl r
    rwa [hplain, hplain] at hnone
  rcases next?_tails hblanks with hcomment | hclose
  · refine .inl ⟨⟨n, h, ?_⟩, fun {ε tail} htail hkeep => ?_⟩
    · rw [halone, run, hcomment [] fun c hc => absurd hc List.not_mem_nil]
    · rw [hrun htail hkeep, run, verbose_enclosed, hcomment tail htail]
  · refine .inr ⟨?_, fun {ε tail} htail hkeep => ?_⟩
    · rintro ⟨n', hn', hcomment⟩
      obtain rfl := Except.ok.inj (h.symm.trans hn')
      rw [halone, run_blanks (hclose []), run_close] at hcomment
      split at hcomment
      · cases hcomment
      · rename_i k hleave
        obtain ⟨f, hframes, -⟩ := leave_eq_ok hleave
        obtain rfl := Except.ok.inj ((run_nil k).symm.trans hcomment)
        exact List.cons_ne_self f _ hframes.symm
    · rw [hrun htail hkeep]
      exact run_blanks (m := n.enclosed ε) (hclose tail)

/-- **Where the parentheses are all closed in the end**, the source is read to its end on its own, with no parenthesis of its own
left open and no comment -/
theorem run_of_enclosed {ε : Enclosure} {k : Machine} (htail : IsTail tail) (hs : m.run s ≠ .error .unbalancedParenthesis)
    (hm : m.IsNumbered) (hkeep : ∀ r ∈ m.speaksOf s, ε.Keeps r) (hcount : tail.count ')' < ε.frames.length)
    (hk : (m.enclosed ε).run (s ++ ')' :: tail) = .ok k) (hframes : k.frames = []) :
    ∃ n, m.run s = .ok n ∧ n.frames = [] ∧ ¬m.EndsInComment s := by
  cases h : m.run s with
  | error f => exact absurd hframes (frames_of_run_closing htail h (fun hf => hs (hf ▸ h)) hm hkeep hcount hk)
  | ok n =>
    rcases run_close_cases h hm with ⟨-, hrun⟩ | ⟨hcomment, hrun⟩
    · rw [hrun htail hkeep] at hk
      obtain rfl := Except.ok.inj hk
      have hnil := (List.append_eq_nil_iff.1 hframes).2
      rw [hnil] at hcount
      exact absurd hcount (Nat.not_lt_zero _)
    · rw [hrun htail hkeep] at hk
      have hmarks : IsTail (')' :: tail) := List.forall_mem_cons.2 ⟨.inl rfl, htail⟩
      have hle := frames_of_run_tail hmarks hk
      rw [hframes, List.count_cons_self, enclosed, List.length_append, List.length_map] at hle
      refine ⟨n, rfl, List.eq_nil_of_length_eq_zero ?_, hcomment⟩
      simp only [List.length_nil] at hle
      omega

end Machine

end UriRouting.Regex
