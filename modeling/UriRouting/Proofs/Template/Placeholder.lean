/-
Placeholders with a constraint. A name that is read as such in braces of its own is read with any constraint behind it
that is trimmed, not empty, and whose braces balance.

- `innerLength_behind`: a text whose braces balance does not matter for those behind it.
- `gather_constrained`, `tokenize_constrained`: the placeholder, behind plain text or alone, is read as it is printed.
-/
import UriRouting.Proofs.Template.Outline

namespace UriRouting.Template

open Results

/-- in front of a closing brace, all braces of the text are balanced -/
def IsBalanced (t : Text) : Prop := innerLength 0 (t ++ ['}']) = some t.length

instance (t : Text) : Decidable (IsBalanced t) := inferInstanceAs (Decidable (_ = _))

/-- a constraint as a template may write it: trimmed, not empty, its braces balanced -/
structure IsConstraint (constraint : Text) : Prop where
  trimmed : constraint.trim = constraint
  nonempty : constraint ≠ []
  balanced : IsBalanced constraint

/-! ## Balanced braces -/

/-- a character that neither escapes the next one nor ends the scan takes it on, perhaps to another depth -/
theorem innerLength_cons {depth : ℕ} {c : Char} (hescape : c ≠ '\\') (hclose : c = '}' → depth ≠ 0) :
    ∃ next, ∀ rest, innerLength depth (c :: rest) = (innerLength next rest).map (· + 1) := by
  by_cases hopen : c = '{'
  · subst hopen
    exact ⟨depth + 1, fun rest => by rw [innerLength]⟩
  · by_cases hbrace : c = '}'
    · subst hbrace
      obtain ⟨below, rfl⟩ := Nat.exists_eq_succ_of_ne_zero (hclose rfl)
      exact ⟨below, fun rest => by rw [innerLength]⟩
    · refine ⟨depth, fun rest => ?_⟩
      rw [innerLength]
      · exact fun h _ => hescape h
      · exact fun _ _ h _ => hescape h
      · exact hopen
      · exact fun _ h => hbrace h
      · exact fun _ _ h => hbrace h

/-- **Behind a text whose braces balance the scan goes on as if it stood at the start** -/
theorem innerLength_behind {depth : ℕ} {t : Text} (h : innerLength depth (t ++ ['}']) = some t.length) (rest : Text) :
    innerLength depth (t ++ rest) = (innerLength 0 rest).map (· + t.length) := by
  have hcons : ∀ {depth c t}, c ≠ '\\' → innerLength depth (c :: t ++ ['}']) = some (c :: t).length →
      (∀ {next}, innerLength next (t ++ ['}']) = some t.length →
        innerLength next (t ++ rest) = (innerLength 0 rest).map (· + t.length)) →
      innerLength depth (c :: t ++ rest) = (innerLength 0 rest).map (· + (c :: t).length) := by
    intro depth c t hescape h ih
    have hclose : c = '}' → depth ≠ 0 := by
      rintro rfl rfl
      simp [innerLength] at h
    obtain ⟨next, hnext⟩ := innerLength_cons hescape hclose
    rw [List.cons_append, hnext] at h ⊢
    obtain ⟨n, hn, hlength⟩ := Option.map_eq_some_iff.1 h
    obtain rfl : n = t.length := by simpa using hlength
    rw [ih hn, Option.map_map]
    rfl
  induction t using List.twoStepInduction generalizing depth with
  | nil =>
    cases depth with
    | zero => simp
    | succ depth => simp [innerLength] at h
  | singleton c =>
    by_cases hescape : c = '\\'
    · subst hescape
      simp [innerLength] at h
    · refine hcons hescape h ?_
      intro next hnext
      cases next with
      | zero => simp
      | succ next => simp [innerLength] at hnext
  | cons_cons c d t ih ihcons =>
    by_cases hescape : c = '\\'
    · subst hescape
      rw [List.cons_append, List.cons_append, innerLength] at h ⊢
      obtain ⟨n, hn, hlength⟩ := Option.map_eq_some_iff.1 h
      obtain rfl : n = t.length := by simpa using hlength
      rw [ih hn, Option.map_map]
      rfl
    · exact hcons hescape h (ihcons d)

/-! ## Names and constraints -/

theorem length_cutAt_lt {c : Char} {t : Text} (h : c ∈ t) : (t.cutAt c).1.length < t.length := by
  induction t with
  | nil => simp at h
  | cons d t ih =>
    unfold Text.cutAt
    split
    · simp
    · rename_i hd
      exact Nat.succ_lt_succ (ih ((List.mem_cons.1 h).resolve_left (Ne.symm hd)))

/-- a name has no colon, is trimmed and is not empty -/
theorem IsName.shape {n : Text} (h : IsName n) : ':' ∉ n ∧ n.trim = n ∧ n ≠ [] := by
  obtain ⟨-, -, hparameter⟩ := h.spec
  have hname : (n.cutAt ':').1.trim = n ∧ n ≠ [] := by
    simp only [parameter?] at hparameter
    split at hparameter
    · simp at hparameter
    · rename_i hne
      split at hparameter
      · obtain ⟨hn, -⟩ := Token.parameter.inj (Option.some.inj hparameter)
        exact ⟨hn, hn ▸ hne⟩
      · exact absurd (Token.parameter.inj (Option.some.inj hparameter)).2 (by simp)
  have hcolon : ':' ∉ n := by
    intro hmem
    have hle := length_trim_le (n.cutAt ':').1
    rw [hname.1] at hle
    exact absurd (length_cutAt_lt hmem) (not_lt_of_ge hle)
  have hcut : (n.cutAt ':').1 = n := by
    have hwhole := n.cutAt_append ':'
    cases hafter : (n.cutAt ':').2 with
    | none =>
      rw [hafter, List.append_nil] at hwhole
      exact hwhole.symm
    | some rest =>
      rw [hafter] at hwhole
      exact absurd (hwhole ▸ by simp) hcolon
  rw [hcut] at hname
  exact ⟨hcolon, hname⟩

theorem trim_space (t : Text) : Text.trim (' ' :: t) = t.trim := by
  have hblank : isBlank ' ' = true := by decide
  rw [Text.trim, List.dropWhile_cons_of_pos hblank, Text.trim]

variable {n constraint : Text}

/-- **A name with a constraint behind it is a placeholder of that name and constraint** -/
theorem parameter?_constrained (hn : IsName n) (hk : IsConstraint constraint) :
    parameter? (n ++ ':' :: ' ' :: constraint) = some (.parameter n (some constraint)) := by
  obtain ⟨hcolon, htrim, hne⟩ := hn.shape
  simp only [parameter?, Text.cutAt_of_not_mem hcolon, htrim, Option.getD_some, trim_space, hk.trimmed]
  cases n with
  | nil => exact absurd rfl hne
  | cons c n =>
    cases constraint with
    | nil => exact absurd rfl hk.nonempty
    | cons d constraint => rfl

/-- the digits in front, and what may follow them -/
theorem isQuantifier_eq (inner : Text) :
    let isDigit := fun c : Char => Codepoint.isDecimalDigit c.toNat
    isQuantifier inner = (!(inner.takeWhile isDigit).isEmpty &&
      ((inner.dropWhile isDigit).head?.all (· == ',') && (inner.dropWhile isDigit).tail.all isDigit)) := by
  intro isDigit
  unfold isQuantifier
  change (_ && _) = _
  generalize inner.dropWhile isDigit = behind
  cases behind with
  | nil => rfl
  | cons c rest => rw [List.head?_cons, Option.all_some, List.tail_cons]

/-- a colon is no part of a quantifier -/
theorem isQuantifier_constrained (n constraint : Text) : isQuantifier (n ++ ':' :: constraint) = false := by
  let isDigit := fun c : Char => Codepoint.isDecimalDigit c.toNat
  have hcolon : isDigit ':' = false := by decide +kernel
  have hdrop : (n ++ ':' :: constraint).dropWhile isDigit = n.dropWhile isDigit ++ ':' :: constraint := by
    induction n with
    | nil => rw [List.nil_append, List.dropWhile_cons_of_neg (by simp [hcolon]), List.dropWhile_nil, List.nil_append]
    | cons c n ih =>
      by_cases hc : isDigit c = true
      · rw [List.cons_append, List.dropWhile_cons_of_pos hc, List.dropWhile_cons_of_pos hc, ih]
      · rw [List.cons_append, List.dropWhile_cons_of_neg hc, List.dropWhile_cons_of_neg hc, List.cons_append]
  rw [isQuantifier_eq, hdrop]
  cases n.dropWhile isDigit with
  | nil => exact Bool.and_false _
  | cons c rest =>
    have hall : (rest ++ ':' :: constraint).all isDigit = false := by simp [hcolon]
    rw [List.cons_append, List.tail_cons, hall, Bool.and_false, Bool.and_false]

/-- **A placeholder with a constraint is read as it is printed**, behind pending text and in front of any rest -/
theorem gather_constrained (hn : IsName n) (hk : IsConstraint constraint) (pending : Text) (position : ℕ) (rest : Text) :
    gather pending position (segments ((Token.parameter n (some constraint)).print ++ rest)) =
      (gather [] (position + (n.length + constraint.length + 4)) (segments rest)).map
        fun tokens => flush pending (.parameter n (some constraint) :: tokens) := by
  have hlength : innerLength 0 (n ++ ':' :: ' ' :: constraint ++ ['}']) =
      some (n ++ ':' :: ' ' :: constraint).length := by
    obtain ⟨hname, -, -⟩ := hn.spec
    have hcolon : IsBalanced [':', ' '] := by decide
    have hbalanced : innerLength 0 (constraint ++ ['}']) = some constraint.length := hk.balanced
    calc
      innerLength 0 (n ++ ':' :: ' ' :: constraint ++ ['}'])
      _ = innerLength 0 (n ++ ([':', ' '] ++ (constraint ++ ['}']))) := by simp
      _ = some (constraint.length + 2 + n.length) := by
        rw [innerLength_behind hname, innerLength_behind hcolon, hbalanced]
        rfl
      _ = some (n ++ ':' :: ' ' :: constraint).length := by
        rw [List.length_append, List.length_cons, List.length_cons, Nat.add_comm]
  have hprint : (Token.parameter n (some constraint)).print ++ rest =
      '{' :: (n ++ ':' :: ' ' :: constraint) ++ '}' :: rest := by
    simp [Token.print]
  rw [hprint, gather_braces hlength (isQuantifier_constrained n _) (parameter?_constrained hn hk)]
  congr 2
  simp only [List.length_append, List.length_cons]
  omega

theorem tokenize_constrained (hn : IsName n) (hk : IsConstraint constraint) {l : Text} (hl : Regex.IsLiteral l) :
    tokenize (l ++ (Token.parameter n (some constraint)).print) =
      .ok (flush l [.parameter n (some constraint)]) := by
  have hgather := gather_constrained hn hk l (0 + l.length) []
  rw [List.append_nil, segments, gather] at hgather
  rw [tokenize, segments_text_append hl, gather_plain, List.nil_append, hgather]
  rfl

end UriRouting.Template
