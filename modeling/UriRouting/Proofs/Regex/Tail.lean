/-
Reading in front of a closing parenthesis. A reader looks ahead, but nothing that it looks for begins with a closing
parenthesis: where a source ends, one that is put behind it stops the reader as the end does. So a source is read the same in
front of a tail, which is a closing parenthesis with parentheses, slashes and question marks behind it (`IsTail`).

Two things blur this. Under the verbose flag a comment that the source ends with takes in the tail, so a reader may find
nothing left either way (`Extends`). And what the source leaves unfinished may find its end in the tail: a backslash, a
comment or a flag group. Then reading fails without the tail, and goes on in the midst of it with it (`Mirrors`).

- `accept?_extends`, `takeRun_extends`: the readers that all others are made of.
- `limits?_tail`, `checkTolerance_tail`: what may stand behind an opening brace.
- `groupName_extends`, `flagChange_extends`, `escape_tail`, `angleReference_tail`: names, flags and escapes.
-/
import UriRouting.Proofs.Regex.Sets
import UriRouting.Proofs.Results
import UriRouting.Regex.Parser

namespace UriRouting.Regex

open Results

/-- what may stand behind the closing parenthesis -/
def IsTail (tail : Text) : Prop := ∀ c ∈ tail, c = ')' ∨ c = '/' ∨ c = '?'

def ahead {α : Type} (more : Text) : Except Fault (α × Text) → Except Fault (α × Text) :=
  Except.map fun x => (x.1, x.2 ++ more)

/-- what is left in front of the tail is what is left without it and the tail, or there is nothing left either way, as behind
a comment -/
def Extends (verbose : Bool) (tail s s' : Text) : Prop :=
  s' = s ++ ')' :: tail ∨ verbose = true ∧ s = [] ∧ s' = []

/-- the same result, and the same left but for the tail -/
inductive Agrees {α : Type} (verbose : Bool) (tail : Text) : Except Fault (α × Text) → Except Fault (α × Text) → Prop
  | ok (a : α) {r r' : Text} (h : Extends verbose tail r r') : Agrees verbose tail (.ok (a, r)) (.ok (a, r'))
  | error (e : Fault) : Agrees verbose tail (.error e) (.error e)

/-- a result stays as it is in front of the tail; a failure stays one, or what was unfinished is finished in the tail -/
def Mirrors {α : Type} (tail : Text) (x y : Except Fault (α × Text)) : Prop :=
  match x with
  | .ok (a, r) => y = .ok (a, r ++ ')' :: tail)
  | .error _ => ∀ a t, y = .ok (a, t) → t <:+ tail

theorem Mirrors.of_error {α : Type} {tail : Text} {f g : Fault} : Mirrors (α := α) tail (.error f) (.error g) := by
  intro a t h
  cases h

theorem Mirrors.of_eq {α : Type} {tail : Text} {x y : Except Fault (α × Text)} (h : y = ahead (')' :: tail) x) :
    Mirrors tail x y := by
  subst h
  cases x with
  | error e => exact .of_error
  | ok x => rfl

theorem IsTail.not_mem {tail : Text} (h : IsTail tail) {c : Char} (hc : c ≠ ')' ∧ c ≠ '/' ∧ c ≠ '?') : c ∉ tail := by
  intro hmem
  rcases h c hmem with rfl | rfl | rfl
  · exact hc.1 rfl
  · exact hc.2.1 rfl
  · exact hc.2.2 rfl

variable {v : Bool} {tail s s' : Text}

theorem Extends.append (v : Bool) (tail s : Text) : Extends v tail s (s ++ ')' :: tail) := .inl rfl

/-! ## Blanks and comments -/

theorem pastBlanks_append {comment : Bool} {c : Char} {rest : Text} (h : pastBlanks comment s = c :: rest) (w : Text) :
    pastBlanks comment (s ++ w) = c :: rest ++ w := by
  fun_induction pastBlanks comment s with
  | case1 => cases h
  | case2 d s ih => rw [List.cons_append, pastBlanks, ih h]
  | case3 d s hblank ih => rw [List.cons_append, pastBlanks, if_pos hblank, ih h]
  | case4 s hblank ih => rw [List.cons_append, pastBlanks, if_neg hblank, if_pos rfl, ih h]
  | case5 d s hblank hsign =>
    rw [List.cons_append, pastBlanks, if_neg hblank, if_neg hsign, ← List.cons_append, h]

/-- a comment goes on to the end of a text without line ends -/
theorem pastBlanks_comment {t : Text} (h : '\n' ∉ t) : pastBlanks true t = [] := by
  induction t with
  | nil => rfl
  | cons c t ih =>
    obtain ⟨hc, ht⟩ := not_or.1 (mt List.mem_cons.2 h)
    have hne : (c != '\n') = true := by simpa using Ne.symm hc
    rw [pastBlanks, hne, ih ht]

theorem not_isBlank_close : isBlank ')' = false := by decide

theorem IsTail.no_line_end (h : IsTail tail) : '\n' ∉ ')' :: tail := by
  rw [List.mem_cons, not_or]
  exact ⟨by decide, h.not_mem (by decide)⟩

/-- where nothing is left of the source, the tail is next, or it is in a comment: that does not depend on the tail -/
theorem pastBlanks_tail {comment : Bool} (h : pastBlanks comment s = []) :
    (∀ tail, IsTail tail → pastBlanks comment (s ++ ')' :: tail) = []) ∨
      ∀ tail, pastBlanks comment (s ++ ')' :: tail) = ')' :: tail := by
  fun_induction pastBlanks comment s with
  | case1 comment =>
    cases comment with
    | true => exact .inl fun tail htail => pastBlanks_comment htail.no_line_end
    | false =>
      refine .inr fun tail => ?_
      rw [List.nil_append, pastBlanks, not_isBlank_close]
      rfl
  | case2 d s ih =>
    simp only [List.cons_append, pastBlanks]
    exact ih h
  | case3 d s hblank ih =>
    simp only [List.cons_append, pastBlanks, if_pos hblank]
    exact ih h
  | case4 s hblank ih =>
    simp only [List.cons_append, pastBlanks, if_neg hblank, if_true]
    exact ih h
  | case5 d s hblank hsign => cases h

theorem next?_eq_some_iff {c : Char} {rest : Text} : next? v s = some (c, rest) ↔ skip v s = c :: rest := by
  unfold next?
  cases skip v s with
  | nil => simp
  | cons d r => simp

theorem next?_eq_none_iff : next? v s = none ↔ skip v s = [] := by
  unfold next?
  cases skip v s <;> simp

/-- a character that counts is met whatever stands behind -/
theorem next?_append {c : Char} {rest : Text} (h : next? v s = some (c, rest)) (w : Text) :
    next? v (s ++ w) = some (c, rest ++ w) := by
  rw [next?_eq_some_iff] at h ⊢
  unfold skip at h ⊢
  cases v with
  | false =>
    simp only [Bool.false_eq_true, if_false] at h ⊢
    rw [h, List.cons_append]
  | true => exact pastBlanks_append h w

/-- where nothing is left of the source, the tail is next, or it is in a comment: that does not depend on the tail -/
theorem next?_tails (h : next? v s = none) :
    (∀ tail, IsTail tail → next? v (s ++ ')' :: tail) = none) ∨ ∀ tail, next? v (s ++ ')' :: tail) = some (')', tail) := by
  rw [next?_eq_none_iff] at h
  simp only [next?_eq_none_iff, next?_eq_some_iff]
  unfold skip at h ⊢
  cases v with
  | false =>
    simp only [Bool.false_eq_true, if_false] at h ⊢
    subst h
    exact .inr fun _ => rfl
  | true => exact pastBlanks_tail h

theorem next?_tail (htail : IsTail tail) (h : next? v s = none) :
    next? v (s ++ ')' :: tail) = none ∨ next? v (s ++ ')' :: tail) = some (')', tail) :=
  (next?_tails h).imp (fun h => h tail htail) (fun h => h tail)

/-- what is next is next in front of the tail; where nothing is, it is at most the closing parenthesis -/
theorem next?_extends (htail : IsTail tail) (h : Extends v tail s s') :
    (∃ c rest, next? v s = some (c, rest) ∧ next? v s' = some (c, rest ++ ')' :: tail)) ∨
      next? v s = none ∧ (next? v s' = none ∨ next? v s' = some (')', tail)) := by
  rcases h with rfl | ⟨-, rfl, rfl⟩
  · cases hnext : next? v s with
    | none => exact .inr ⟨rfl, next?_tail htail hnext⟩
    | some x => exact .inl ⟨x.1, x.2, rfl, next?_append hnext _⟩
  · have hnil : next? v [] = none := by cases v <;> rfl
    exact .inr ⟨hnil, .inl hnil⟩

theorem Extends.next? (htail : IsTail tail) (h : Extends v tail s s') {c : Char} {rest : Text}
    (hs : Regex.next? v s = some (c, rest)) : Regex.next? v s' = some (c, rest ++ ')' :: tail) := by
  rcases next?_extends htail h with ⟨d, more, hd, hd'⟩ | ⟨hnone, -⟩
  · obtain ⟨rfl, rfl⟩ := Prod.mk.inj (Option.some.inj (hd.symm.trans hs))
    exact hd'
  · cases hnone.symm.trans hs

/-! ## Single characters and runs -/

/-- another character than a closing parenthesis is accepted where it is without the tail -/
theorem accept?_extends (htail : IsTail tail) {c : Char} (hc : c ≠ ')') (h : Extends v tail s s') :
    accept? v c s' = (accept? v c s).map (· ++ ')' :: tail) := by
  unfold accept?
  rcases next?_extends htail h with ⟨d, rest, hs, hs'⟩ | ⟨hs, hs' | hs'⟩
  · rw [hs, hs']
    simp only
    split <;> rfl
  · rw [hs, hs']
    rfl
  · rw [hs, hs']
    simp only [if_neg hc]
    rfl

/-- a closing parenthesis that is accepted is, in front of the tail, accepted; else it may be that of the tail -/
theorem accept?_close (htail : IsTail tail) (h : Extends v tail s s') :
    (∃ rest, accept? v ')' s = some rest ∧ accept? v ')' s' = some (rest ++ ')' :: tail)) ∨
      accept? v ')' s = none ∧ (accept? v ')' s' = none ∨ accept? v ')' s' = some tail) := by
  unfold accept?
  rcases next?_extends htail h with ⟨d, rest, hs, hs'⟩ | ⟨hs, hs' | hs'⟩
  · rw [hs, hs']
    by_cases hd : ')' = d
    · simp only [if_pos hd]
      exact .inl ⟨rest, rfl, rfl⟩
    · simp only [if_neg hd]
      exact .inr ⟨trivial, .inl trivial⟩
  · rw [hs, hs']
    exact .inr ⟨rfl, .inl rfl⟩
  · rw [hs, hs']
    exact .inr ⟨rfl, .inr rfl⟩

/-- within a comment nothing counts to the end of a text without line ends -/
theorem takeCounting_comment {p : Char → Bool} {t : Text} (h : '\n' ∉ t) : takeCounting p true t = ([], []) := by
  induction t with
  | nil => rfl
  | cons c t ih =>
    obtain ⟨hc, ht⟩ := not_or.1 (mt List.mem_cons.2 h)
    have hne : (c != '\n') = true := by simpa using Ne.symm hc
    rw [takeCounting, hne, ih ht]

theorem takeCounting_tail (htail : IsTail tail) {p : Char → Bool} (hp : p ')' = false) (comment : Bool) (s : Text) :
    (takeCounting p comment (s ++ ')' :: tail)).1 = (takeCounting p comment s).1 ∧
      Extends true tail (takeCounting p comment s).2 (takeCounting p comment (s ++ ')' :: tail)).2 := by
  fun_induction takeCounting p comment s with
  | case1 comment =>
    cases comment with
    | true =>
      rw [List.nil_append, takeCounting_comment htail.no_line_end]
      exact ⟨rfl, .inr ⟨rfl, rfl, rfl⟩⟩
    | false =>
      have hstop : takeCounting p false (')' :: tail) = ([], ')' :: tail) := by
        rw [takeCounting, not_isBlank_close, hp]
        rfl
      rw [List.nil_append, hstop]
      exact ⟨rfl, .inl rfl⟩
  | case2 c s ih =>
    rw [List.cons_append, takeCounting]
    exact ih
  | case3 c s hblank ih =>
    rw [List.cons_append, takeCounting, if_pos hblank]
    exact ih
  | case4 s hblank ih =>
    rw [List.cons_append, takeCounting, if_neg hblank, if_pos rfl]
    exact ih
  | case5 c s hblank hsign hc ih =>
    rw [List.cons_append, takeCounting, if_neg hblank, if_neg hsign, if_pos hc]
    exact ⟨congrArg (c :: ·) ih.1, ih.2⟩
  | case6 c s hblank hsign hc =>
    rw [List.cons_append, takeCounting, if_neg hblank, if_neg hsign, if_neg hc]
    exact ⟨rfl, .inl rfl⟩

theorem takeWhile_tail {p : Char → Bool} (hp : p ')' = false) (s tail : Text) :
    (s ++ ')' :: tail).takeWhile p = s.takeWhile p ∧ (s ++ ')' :: tail).dropWhile p = s.dropWhile p ++ ')' :: tail := by
  induction s with
  | nil => simp [hp]
  | cons c s ih =>
    by_cases hc : p c = true
    · simp only [List.cons_append, List.takeWhile_cons_of_pos hc, List.dropWhile_cons_of_pos hc]
      exact ⟨congrArg (c :: ·) ih.1, ih.2⟩
    · simp only [List.cons_append, List.takeWhile_cons_of_neg hc, List.dropWhile_cons_of_neg hc, true_and]

/-- **A run of characters ends at the tail** -/
theorem takeRun_extends (htail : IsTail tail) {p : Char → Bool} (hp : p ')' = false) (h : Extends v tail s s') :
    (takeRun v p s').1 = (takeRun v p s).1 ∧ Extends v tail (takeRun v p s).2 (takeRun v p s').2 := by
  rcases h with rfl | ⟨hv, rfl, rfl⟩
  · cases v with
    | true => exact takeCounting_tail htail hp false s
    | false =>
      simp only [takeRun, Bool.false_eq_true, if_false]
      obtain ⟨htake, hdrop⟩ := takeWhile_tail hp s tail
      exact ⟨htake, .inl hdrop⟩
  · subst hv
    exact ⟨rfl, .inr ⟨rfl, rfl, rfl⟩⟩

/-! ## Limits and quantifiers -/

theorem isDigit_close : isDigit ')' = false := by decide

theorem limits?_tail (htail : IsTail tail) (s : Text) :
    limits? v (s ++ ')' :: tail) = (limits? v s).map (Option.map fun x => (x.1, x.2 ++ ')' :: tail)) := by
  have hchecked : ∀ lower upper {r r' : Text}, Extends v tail r r' → limits?.checked v lower upper r' =
      (limits?.checked v lower upper r).map (Option.map fun x => (x.1, x.2 ++ ')' :: tail)) := by
    intro lower upper r r' h
    unfold limits?.checked
    simp only [accept?_extends htail (by decide : '}' ≠ ')') h]
    split
    · rfl
    split
    · rfl
    split
    · cases accept? v '}' r <;> rfl
    · rfl
  obtain ⟨hlower, hrest⟩ := takeRun_extends htail isDigit_close (.append v tail s)
  simp only [limits?, hlower, accept?_extends htail (by decide : ',' ≠ ')') hrest]
  cases accept? v ',' (takeRun v isDigit s).2 with
  | some rest =>
    obtain ⟨hupper, hrest⟩ := takeRun_extends htail isDigit_close (.append v tail rest)
    simp only [Option.map_some, hupper]
    exact hchecked _ _ hrest
  | none =>
    simp only [Option.map_none]
    split
    · rfl
    · exact hchecked _ _ hrest

/-- a suffix of a quantifier is read the same -/
theorem greed_tail (htail : IsTail tail) (s : Text) :
    greed v (s ++ ')' :: tail) = ((greed v s).1, (greed v s).2 ++ ')' :: tail) := by
  unfold greed
  rcases next?_extends htail (.append v tail s) with ⟨c, rest, hs, hs'⟩ | ⟨hs, hs' | hs'⟩
  · rw [hs, hs']
    split
    · rename_i heq
      obtain ⟨rfl, rfl⟩ := Prod.mk.inj (Option.some.inj heq)
      rfl
    · rename_i heq
      obtain ⟨rfl, rfl⟩ := Prod.mk.inj (Option.some.inj heq)
      rfl
    · rename_i h1 h2
      split
      · rename_i heq
        obtain ⟨rfl, rfl⟩ := Prod.mk.inj (Option.some.inj heq)
        exact absurd rfl (h1 _)
      · rename_i heq
        obtain ⟨rfl, rfl⟩ := Prod.mk.inj (Option.some.inj heq)
        exact absurd rfl (h2 _)
      · rfl
  · rw [hs, hs']
  · rw [hs, hs']
    rfl

/-! ## Tolerances -/

theorem pastComparison?_extends (htail : IsTail tail) (h : Extends v tail s s') :
    pastComparison? v s' = (pastComparison? v s).map (· ++ ')' :: tail) := by
  unfold pastComparison?
  rw [accept?_extends htail (by decide) h]
  cases accept? v '<' s with
  | none => rfl
  | some rest =>
    simp only [Option.map_some, accept?_extends htail (by decide : '=' ≠ ')') (.append v tail rest)]
    cases accept? v '=' rest <;> rfl

theorem mistake?_extends (htail : IsTail tail) (free : List Bounded) (h : Extends v tail s s') :
    mistake? v free s' = (mistake? v free s).map fun x => (x.1, x.2 ++ ')' :: tail) := by
  unfold mistake?
  rcases next?_extends htail h with ⟨c, rest, hs, hs'⟩ | ⟨hs, hs' | hs'⟩
  · simp only [hs, hs']
    cases Bounded.ofLetter? c with
    | none => rfl
    | some b =>
      simp only
      split <;> rfl
  · simp only [hs, hs']
    rfl
  · simp only [hs, hs']
    rfl

/-- the same condition, and the same left but for the tail -/
inductive AgreesOn (v : Bool) (tail : Text) :
    Except Fault (Option (Bounded × Text)) → Except Fault (Option (Bounded × Text)) → Prop
  | some (b : Bounded) {r r' : Text} (h : Extends v tail r r') : AgreesOn v tail (.ok (some (b, r))) (.ok (some (b, r')))
  | none : AgreesOn v tail (.ok none) (.ok none)
  | error (e : Fault) : AgreesOn v tail (.error e) (.error e)

theorem upperBound_extends (htail : IsTail tail) (b : Bounded) (h : Extends v tail s s') :
    AgreesOn v tail (upperBound v b s) (upperBound v b s') := by
  obtain ⟨hdigits, hrest⟩ := takeRun_extends htail isDigit_close h
  simp only [upperBound, hdigits]
  split
  · exact .error _
  · exact .some b hrest

theorem pastWeights_extends (htail : IsTail tail) (free : List Bounded) (h : Extends v tail s s') :
    pastWeights v free s' = (pastWeights v free s).map (Option.map (· ++ ')' :: tail)) := by
  have hrest : ∀ {s s'}, Extends v tail s s' → Extends v tail (takeRun v isDigit s).2 (takeRun v isDigit s').2 :=
    fun h => (takeRun_extends htail isDigit_close h).2
  fun_induction pastWeights v free s generalizing s' with
  | case1 free s hnext =>
    rw [pastWeights]
    rcases next?_extends htail (hrest h) with ⟨c, rest, hs, -⟩ | ⟨-, hs' | hs'⟩
    · cases hnext.symm.trans hs
    · simp only [hs']
      rfl
    · simp only [hs']
      rfl
  | case2 free s c rest hnext hletter =>
    rw [pastWeights]
    simp only [(hrest h).next? htail hnext, hletter]
    rfl
  | case3 free s c rest hnext b hletter hb more haccept ih =>
    rw [pastWeights]
    simp only [(hrest h).next? htail hnext, hletter, dif_pos hb,
      accept?_extends htail (by decide : '+' ≠ ')') (.append v tail rest), haccept, Option.map_some]
    exact ih (.append v tail more)
  | case4 free s c rest hnext b hletter hb haccept =>
    rw [pastWeights]
    simp only [(hrest h).next? htail hnext, hletter, dif_pos hb,
      accept?_extends htail (by decide : '+' ≠ ')') (.append v tail rest), haccept, Option.map_none]
    rfl
  | case5 free s c rest hnext b hletter hb hweighable =>
    rw [pastWeights]
    simp only [(hrest h).next? htail hnext, hletter, dif_neg hb, if_pos hweighable]
    rfl
  | case6 free s c rest hnext b hletter hb hweighable =>
    rw [pastWeights]
    simp only [(hrest h).next? htail hnext, hletter, dif_neg hb, if_neg hweighable]
    rfl

theorem weightsCondition_extends (htail : IsTail tail) (free : List Bounded) (h : Extends v tail s s') :
    AgreesOn v tail (weightsCondition v free s) (weightsCondition v free s') := by
  unfold weightsCondition
  rw [pastWeights_extends htail _ h]
  split
  · exact .error _
  · rcases pastWeights v Bounded.weighable s with e | _ | rest
    · exact .error e
    · exact .none
    · simp only [Except.map, Option.map_some, pastComparison?_extends htail (.append v tail rest)]
      cases pastComparison? v rest with
      | none => exact .none
      | some rest =>
        obtain ⟨hdigits, hrest⟩ := takeRun_extends htail isDigit_close (.append v tail rest)
        simp only [Option.map_some, hdigits]
        split
        · exact .error _
        · exact .some _ hrest

theorem toleranceCondition_extends (htail : IsTail tail) (free : List Bounded) (h : Extends v tail s s') :
    AgreesOn v tail (toleranceCondition v free s) (toleranceCondition v free s') := by
  unfold toleranceCondition
  rw [mistake?_extends htail free h]
  cases mistake? v free s with
  | some x =>
    simp only [Option.map_some, pastComparison?_extends htail (.append v tail x.2)]
    cases pastComparison? v x.2 with
    | some rest => exact upperBound_extends htail _ (.append v tail rest)
    | none => exact .some _ (.append v tail _)
  | none =>
    obtain ⟨hlower, hrest⟩ := takeRun_extends htail isDigit_close h
    have hmistake : (pastComparison? v (takeRun v isDigit s').2).bind (mistake? v free) =
        ((pastComparison? v (takeRun v isDigit s).2).bind (mistake? v free)).map fun x => (x.1, x.2 ++ ')' :: tail) := by
      rw [pastComparison?_extends htail hrest]
      cases pastComparison? v (takeRun v isDigit s).2 with
      | none => rfl
      | some rest => exact mistake?_extends htail free (.append v tail rest)
    simp only [Option.map_none, hlower, hmistake]
    cases (pastComparison? v (takeRun v isDigit s).2).bind (mistake? v free) with
    | none => exact weightsCondition_extends htail free h
    | some x =>
      simp only [Option.map_some, pastComparison?_extends htail (.append v tail x.2)]
      cases (takeRun v isDigit s).1 with
      | nil => exact weightsCondition_extends htail free h
      | cons d digits =>
        cases pastComparison? v x.2 with
        | some rest => exact upperBound_extends htail _ (.append v tail rest)
        | none => exact weightsCondition_extends htail free h

theorem checkConditions_extends (htail : IsTail tail) (free : List Bounded) (h : Extends v tail s s') :
    checkConditions v free s' = checkConditions v free s := by
  have hcondition := toleranceCondition_extends htail free h
  fun_induction checkConditions v free s generalizing s' with
  | case1 free s f hf =>
    rw [hf] at hcondition
    rw [checkConditions]
    generalize toleranceCondition v free s' = y at hcondition ⊢
    cases hcondition
    rfl
  | case2 free s hnone =>
    rw [hnone] at hcondition
    rw [checkConditions]
    generalize toleranceCondition v free s' = y at hcondition ⊢
    cases hcondition
    rfl
  | case3 free s b rest hsome more haccept hb ih =>
    rw [hsome] at hcondition
    rw [checkConditions]
    generalize toleranceCondition v free s' = y at hcondition ⊢
    cases hcondition with
    | some b hrest =>
      simp only [accept?_extends htail (by decide : ',' ≠ ')') hrest, haccept, Option.map_some, dif_pos hb]
      exact ih (.append v tail more) (toleranceCondition_extends htail _ (.append v tail more))
  | case4 free s b rest hsome more haccept hb =>
    rw [hsome] at hcondition
    rw [checkConditions]
    generalize toleranceCondition v free s' = y at hcondition ⊢
    cases hcondition with
    | some b hrest =>
      simp only [accept?_extends htail (by decide : ',' ≠ ')') hrest, haccept, Option.map_some, dif_neg hb]
  | case5 free s b rest hsome haccept =>
    rw [hsome] at hcondition
    rw [checkConditions]
    generalize toleranceCondition v free s' = y at hcondition ⊢
    cases hcondition with
    | some b hrest =>
      simp only [accept?_extends htail (by decide : ',' ≠ ')') hrest, haccept, Option.map_none]

/-- what is a tolerance is one in front of the tail, and what is text is text -/
theorem checkTolerance_tail (htail : IsTail tail) (s : Text) :
    checkTolerance v (s ++ ')' :: tail) = checkTolerance v s :=
  checkConditions_extends htail _ (.append v tail s)

/-! ## Names of groups -/

theorem groupText_extends (htail : IsTail tail) (h : Extends v tail s s') :
    (groupText v s').1 = (groupText v s).1 ∧ Extends v tail (groupText v s).2 (groupText v s').2 :=
  takeRun_extends htail (by decide) h

theorem groupName_extends (htail : IsTail tail) (h : Extends v tail s s') :
    Agrees v tail (groupName v s) (groupName v s') := by
  obtain ⟨hname, hrest⟩ := groupText_extends htail h
  simp only [groupName, hname]
  split
  · exact .ok _ hrest
  · exact .error _

theorem groupReference_extends (htail : IsTail tail) (h : Extends v tail s s') :
    Agrees v tail (groupReference v s) (groupReference v s') := by
  obtain ⟨hname, hrest⟩ := groupText_extends htail h
  simp only [groupReference, hname]
  split
  · split
    · exact .error _
    · exact .ok _ hrest
    · exact .error _
  · split
    · exact .ok _ hrest
    · exact .error _

/-- a back-reference in angle brackets is read the same -/
theorem angleReference_tail (htail : IsTail tail) (s : Text) :
    angleReference v (s ++ ')' :: tail) = ahead (')' :: tail) (angleReference v s) := by
  unfold angleReference
  rw [accept?_extends htail (by decide) (.append v tail s)]
  cases accept? v '<' s with
  | none => rfl
  | some rest =>
    have hreference := groupReference_extends htail (.append v tail rest)
    simp only [Option.map_some]
    generalize groupReference v rest = x at hreference ⊢
    generalize groupReference v (rest ++ ')' :: tail) = y at hreference ⊢
    cases hreference with
    | error e => rfl
    | ok r hrest =>
      simp only [accept?_extends htail (by decide : '>' ≠ ')') hrest]
      cases accept? v '>' _ <;> rfl

/-! ## Flags -/

theorem flagLetters_extends (htail : IsTail tail) (h : Extends v tail s s') :
    (flagLetters v s').1 = (flagLetters v s).1 ∧ Extends v tail (flagLetters v s).2 (flagLetters v s').2 := by
  obtain ⟨hletters, hrest⟩ := takeRun_extends htail (p := fun c => (Flag.ofLetter? c).isSome) (by decide) h
  exact ⟨by simp only [flagLetters, hletters], hrest⟩

theorem flagChange_extends (htail : IsTail tail) (h : Extends v tail s s') :
    Agrees v tail (flagChange v s) (flagChange v s') := by
  obtain ⟨hon, hrest⟩ := flagLetters_extends htail h
  simp only [flagChange, hon, accept?_extends htail (by decide : '-' ≠ ')') hrest]
  cases accept? v '-' (flagLetters v s).2 with
  | none => exact .ok _ hrest
  | some rest =>
    obtain ⟨hoff, hrest⟩ := flagLetters_extends htail (.append v tail rest)
    simp only [Option.map_some, hoff]
    split
    · exact .error _
    · exact .ok _ hrest

theorem suffix_of_pastComment {t : Text} (h : pastComment s = some t) : t <:+ s := by
  fun_induction pastComment s with
  | case1 => cases h
  | case2 rest => exact Option.some.inj h ▸ List.suffix_cons _ _
  | case3 c rest ih => exact (ih h).trans ((List.suffix_cons _ _).trans (List.suffix_cons _ _))
  | case4 c rest _ _ ih => exact (ih h).trans (List.suffix_cons _ _)

/-- a comment that is closed stays so; one that is not may be closed by the tail -/
theorem pastComment_tail (tail s : Text) :
    (∃ rest, pastComment s = some rest ∧ pastComment (s ++ ')' :: tail) = some (rest ++ ')' :: tail)) ∨
      pastComment s = none ∧ ∀ t, pastComment (s ++ ')' :: tail) = some t → t <:+ tail := by
  fun_induction pastComment s with
  | case1 =>
    refine .inr ⟨rfl, ?_⟩
    intro t h
    obtain rfl : tail = t := Option.some.inj h
    exact List.suffix_rfl
  | case2 rest => exact .inl ⟨rest, rfl, rfl⟩
  | case3 c rest ih => exact ih
  | case4 c rest hclose hescape ih =>
    by_cases hc : c = '\\' ∧ rest = []
    · -- a backslash at the very end hides the closing parenthesis of the tail
      obtain ⟨rfl, rfl⟩ := hc
      refine .inr ⟨rfl, ?_⟩
      intro t h
      exact suffix_of_pastComment h
    · have hskip : pastComment (c :: rest ++ ')' :: tail) = pastComment (rest ++ ')' :: tail) := by
        rw [List.cons_append, pastComment]
        · exact hclose
        · intro d more hbackslash hmore
          cases rest with
          | nil => exact hc ⟨hbackslash, rfl⟩
          | cons e rest => exact hescape e rest hbackslash rfl
      rw [hskip]
      exact ih

/-! ## Escapes -/

theorem hexEscape_tail (htail : IsTail tail) (k n : ℕ) (s : Text) :
    hexEscape v k n (s ++ ')' :: tail) = ahead (')' :: tail) (hexEscape v k n s) := by
  induction k generalizing n s with
  | zero =>
    unfold hexEscape
    split <;> rfl
  | succ k ih =>
    unfold hexEscape
    rcases next?_extends htail (.append v tail s) with ⟨c, rest, hs, hs'⟩ | ⟨hs, hs' | hs'⟩
    · simp only [hs, hs']
      split
      · exact ih _ rest
      · rfl
    · simp only [hs, hs']
      rfl
    · simp only [hs, hs']
      rfl

theorem octalDigit?_tail (htail : IsTail tail) (s : Text) :
    octalDigit? v (s ++ ')' :: tail) = (octalDigit? v s).map fun x => (x.1, x.2 ++ ')' :: tail) := by
  unfold octalDigit?
  rcases next?_extends htail (.append v tail s) with ⟨c, rest, hs, hs'⟩ | ⟨hs, hs' | hs'⟩
  · simp only [hs, hs']
    split <;> rfl
  · simp only [hs, hs']
    rfl
  · simp only [hs, hs']
    rfl

theorem octalEscape_tail (htail : IsTail tail) (first : Char) (s : Text) :
    octalEscape v first (s ++ ')' :: tail) = ahead (')' :: tail) (octalEscape v first s) := by
  unfold octalEscape
  split
  · rfl
  · rw [octalDigit?_tail htail]
    cases octalDigit? v s with
    | none => rfl
    | some x =>
      simp only [Option.map_some, octalDigit?_tail htail]
      cases octalDigit? v x.2 <;> rfl

theorem numberEscape_tail (htail : IsTail tail) (wrap : ℕ) (first : Char) (s : Text) :
    numberEscape wrap v first (s ++ ')' :: tail) =
      ((numberEscape wrap v first s).1, (numberEscape wrap v first s).2 ++ ')' :: tail) := by
  unfold numberEscape
  rcases next?_extends htail (.append v tail s) with ⟨c, rest, hs, hs'⟩ | ⟨hs, hs' | hs'⟩
  · simp only [hs, hs', octalDigit?_tail htail]
    split
    · cases octalDigit? v rest with
      | none => rfl
      | some x =>
        simp only [Option.map_some]
        split <;> rfl
    · rfl
  · simp only [hs, hs']
  · simp only [hs, hs']
    rfl

def letterProperty (negated : Bool) (c : Char) (rest : Text) : Except Fault (Option (SetItem × Text)) :=
  if c ∈ "CLMNPSZ".toList then (property [c]).map fun p => some (.property p negated, rest) else .ok none

theorem propertyEscape_of_next? {negated : Bool} {c : Char} {rest : Text} (h : next? v s = some (c, rest)) :
    propertyEscape v negated s = if c = '{' then
      (match accept? v '^' rest with
      | some rest => bracedProperty v (!negated) rest
      | none => bracedProperty v negated rest)
    else letterProperty negated c rest := by
  unfold propertyEscape
  rw [h]
  by_cases hc : c = '{'
  · subst hc
    rw [if_pos rfl]
    rfl
  · rw [if_neg hc, letterProperty]
    simp only

theorem propertyEscape_of_none {negated : Bool} (h : next? v s = none ∨ next? v s = some (')', tail)) :
    propertyEscape v negated s = .ok none := by
  rcases h with h | h
  · rw [propertyEscape, h]
  · rw [propertyEscape_of_next? h]
    rfl

theorem pastValue?_extends (htail : IsTail tail) (h : Extends v tail s s') :
    (∃ r r', pastValue? v s = some r ∧ pastValue? v s' = some r' ∧ Extends v tail r r') ∨
      pastValue? v s = none ∧ pastValue? v s' = none := by
  unfold pastValue?
  rcases next?_extends htail h with ⟨c, rest, hs, hs'⟩ | ⟨hs, hs' | hs'⟩
  · obtain ⟨hvalue, hrest⟩ := takeRun_extends htail (p := isPropertyValueChar) (by decide) (.append v tail rest)
    simp only [hs, hs', hvalue]
    split
    · exact .inl ⟨_, _, rfl, rfl, hrest⟩
    · exact .inr ⟨rfl, rfl⟩
  · simp only [hs, hs']
    exact .inr ⟨trivial, trivial⟩
  · simp only [hs, hs']
    exact .inr ⟨trivial, if_neg fun hc => absurd hc.1 (by decide)⟩

theorem bracedProperty_tail (htail : IsTail tail) (negated : Bool) (s : Text) :
    bracedProperty v negated (s ++ ')' :: tail) =
      (bracedProperty v negated s).map (Option.map fun x => (x.1, x.2 ++ ')' :: tail)) := by
  obtain ⟨hname, hrest⟩ := takeRun_extends htail (p := isPropertyNameChar) (by decide) (.append v tail s)
  simp only [bracedProperty, hname, accept?_extends htail (by decide : '}' ≠ ')') hrest]
  cases accept? v '}' (takeRun v isPropertyNameChar s).2 with
  | none =>
    rcases pastValue?_extends htail hrest with ⟨r, r', hr, hr', hvalue⟩ | ⟨hr, hr'⟩
    · simp only [Option.map_none, hr, hr', Option.bind_some, accept?_extends htail (by decide : '}' ≠ ')') hvalue]
      cases accept? v '}' r <;> rfl
    · simp only [Option.map_none, hr, hr', Option.bind_none]
      rfl
  | some rest =>
    simp only [Option.map_some]
    cases property (takeRun v isPropertyNameChar s).1 <;> rfl

theorem propertyEscape_tail (htail : IsTail tail) (negated : Bool) (s : Text) :
    propertyEscape v negated (s ++ ')' :: tail) =
      (propertyEscape v negated s).map (Option.map fun x => (x.1, x.2 ++ ')' :: tail)) := by
  rcases next?_extends htail (.append v tail s) with ⟨c, rest, hs, hs'⟩ | ⟨hs, hs'⟩
  · rw [propertyEscape_of_next? hs, propertyEscape_of_next? hs']
    split
    · rw [accept?_extends htail (by decide) (.append v tail rest)]
      cases accept? v '^' rest with
      | none => exact bracedProperty_tail htail _ rest
      | some rest => exact bracedProperty_tail htail _ rest
    · unfold letterProperty
      split
      · cases property [c] <;> rfl
      · rfl
  · have hends : next? v s = none ∨ next? v s = some (')', tail) := .inl hs
    rw [propertyEscape_of_none hends, propertyEscape_of_none hs']
    rfl

theorem letterFault_tail (htail : IsTail tail) (inSet : Bool) (c : Char) (s : Text) :
    letterFault v inSet c (s ++ ')' :: tail) = letterFault v inSet c s := by
  unfold letterFault
  rw [angleReference_tail htail]
  cases Regex.angleReference v s <;> rfl

/-- **An escape is read the same**; a backslash at the end takes the closing parenthesis -/
theorem escape_tail (htail : IsTail tail) (wrap : ℕ) (inSet : Bool) (s : Text) :
    Mirrors tail (escape wrap v inSet s) (escape wrap v inSet (s ++ ')' :: tail)) := by
  cases s with
  | nil =>
    intro a t h
    have hclose : escape wrap v inSet ([] ++ ')' :: tail) = .ok (.code ')'.toNat, tail) := rfl
    obtain ⟨-, rfl⟩ := Prod.mk.inj (Except.ok.inj (hclose.symm.trans h))
    exact List.suffix_rfl
  | cons c s =>
    apply Mirrors.of_eq
    rw [List.cons_append]
    unfold escape
    simp only [hexEscape_tail htail, propertyEscape_tail htail, octalEscape_tail htail, numberEscape_tail htail]
    split
    · rfl
    split
    · rfl
    split
    · rfl
    split
    · rcases propertyEscape v (c == 'P') s with e | _ | x <;> rfl
    split
    · cases (if inSet = true then none else anchorLetter? c) with
      | some a => rfl
      | none =>
        cases classLetter? c with
        | some i => rfl
        | none =>
          cases controlLetter? c with
          | some n => rfl
          | none => simp only [letterFault_tail htail, ahead, Except.map]
    split
    · split <;> rfl
    · rfl

end UriRouting.Regex
