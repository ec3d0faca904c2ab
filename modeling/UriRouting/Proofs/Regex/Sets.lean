/-
Reading a set is local: what stands behind its closing bracket does not change what is read.

The readers of escapes, classes and set members look ahead, but never past the bracket that closes the set, since a
closing bracket is no part of a number, of a property name or of a class name. So each of them gives the same piece when
more text is put behind a rest that still holds a closing bracket (`ReadsLocally`), and a set that is read to its end is
read the same in front of any text (`set_append`).
-/
import UriRouting.Regex.Escape
import UriRouting.Proofs.Results

namespace UriRouting.Regex

open Results

/-- in front of more text the reader gives the same piece, if a closing bracket is still to come; it leaves an end of its
text -/
def ReadsLocally {α : Type} (read : Text → Except Fault (α × Text)) : Prop :=
  ∀ {s r : Text} {a : α} (w : Text), read s = .ok (a, r) → ']' ∈ r → read (s ++ w) = .ok (a, r ++ w) ∧ r <:+ s

namespace ReadsLocally

variable {α : Type} {f g : Text → Except Fault (α × Text)}

theorem ok (a : α) : ReadsLocally fun s => .ok (a, s) := by
  intro s r b w h _
  obtain ⟨rfl, rfl⟩ := Prod.mk.inj (Except.ok.inj h)
  exact ⟨rfl, List.suffix_rfl⟩

theorem error (e : Text → Fault) : ReadsLocally fun s => (.error (e s) : Except Fault (α × Text)) := by
  intro s r b w h _
  cases h

theorem ite (p : Prop) [Decidable p] (hf : ReadsLocally f) (hg : ReadsLocally g) :
    ReadsLocally fun s => if p then f s else g s := by
  intro s r b w h hb
  by_cases hp : p
  · simp only [if_pos hp] at h ⊢
    exact hf w h hb
  · simp only [if_neg hp] at h ⊢
    exact hg w h hb

end ReadsLocally

/-! ## Runs of characters -/

theorem takeWhile_append_of_dropWhile {p : Char → Bool} {s : Text} (w : Text) (h : s.dropWhile p ≠ []) :
    (s ++ w).takeWhile p = s.takeWhile p ∧ (s ++ w).dropWhile p = s.dropWhile p ++ w := by
  induction s with
  | nil => exact absurd rfl h
  | cons c s ih =>
    by_cases hc : p c = true
    · simp only [List.cons_append, List.takeWhile_cons, List.dropWhile_cons, hc, if_true] at h ⊢
      exact ⟨congrArg (c :: ·) (ih h).1, (ih h).2⟩
    · simp only [List.cons_append, List.takeWhile_cons, List.dropWhile_cons, hc, Bool.false_eq_true, if_false]
      exact ⟨trivial, trivial⟩

/-- what fails the test is in the text behind the run -/
theorem mem_dropWhile {p : Char → Bool} {s : Text} {c : Char} (hc : p c = false) (h : c ∈ s) : c ∈ s.dropWhile p := by
  rw [← List.takeWhile_append_dropWhile (p := p) (l := s)] at h
  rcases List.mem_append.1 h with h | h
  · have hp : p c = true := List.all_eq_true.1 List.all_takeWhile c h
    rw [hc] at hp
    exact absurd hp (by decide)
  · exact h

/-! ## What is left is an end of the source -/

theorem next?_false_cons (c : Char) (s : Text) : next? false (c :: s) = some (c, s) := rfl

theorem next?_false_nil : next? false [] = none := rfl

theorem next?_nil (v : Bool) : next? v [] = none := by
  cases v <;> rfl

/-- a character that is no blank and begins no comment counts, verbose or not -/
theorem next?_of_counts (v : Bool) {c : Char} (hblank : isBlank c = false) (hsign : c ≠ '#') (s : Text) :
    next? v (c :: s) = some (c, s) := by
  cases v with
  | false => rfl
  | true => simp [next?, skip, pastBlanks, hblank, hsign]

theorem suffix_of_accept {c : Char} {s r : Text} (h : accept? false c s = some r) : r <:+ s := by
  cases s with
  | nil => simp [accept?, next?_false_nil] at h
  | cons d s =>
    simp only [accept?, next?_false_cons] at h
    split at h
    · rw [← Option.some.inj h]
      exact List.suffix_cons d s
    · simp at h

theorem accept?_append {c : Char} {s r : Text} (w : Text) (h : accept? false c s = some r) :
    accept? false c (s ++ w) = some (r ++ w) := by
  cases s with
  | nil => simp [accept?, next?_false_nil] at h
  | cons d s =>
    simp only [accept?, List.cons_append, next?_false_cons] at h ⊢
    split at h
    · rename_i hcd
      rw [if_pos hcd, ← Option.some.inj h]
    · simp at h

theorem accept?_append_of_none {c : Char} {s : Text} (w : Text) (hs : s ≠ []) (h : accept? false c s = none) :
    accept? false c (s ++ w) = none := by
  cases s with
  | nil => exact absurd rfl hs
  | cons d s =>
    simp only [accept?, List.cons_append, next?_false_cons] at h ⊢
    split at h
    · simp at h
    · rename_i hcd
      rw [if_neg hcd]

/-! ## Escapes -/

theorem hexEscape_local (k n : ℕ) : ReadsLocally (hexEscape false k n) := by
  intro s r e w h hb
  induction k generalizing n s with
  | zero =>
    simp only [hexEscape] at h ⊢
    split at h
    · rename_i hn
      simp only [Except.ok.injEq, Prod.mk.injEq] at h
      rw [if_pos hn, h.1, h.2]
      exact ⟨rfl, List.suffix_rfl⟩
    · simp at h
  | succ k ih =>
    cases s with
    | nil => simp [hexEscape, next?_false_nil] at h
    | cons c s =>
      simp only [hexEscape, List.cons_append, next?_false_cons] at h ⊢
      split at h
      · rename_i hc
        obtain ⟨h1, h2⟩ := ih _ h
        rw [if_pos hc]
        exact ⟨h1, h2.trans (List.suffix_cons c s)⟩
      · simp at h

theorem isPropertyNameChar_bracket : isPropertyNameChar ']' = false := by decide

def pastCaret (s : Text) : Text := (accept? false '^' s).getD s

theorem pastCaret_append {s : Text} (w : Text) (hs : s ≠ []) :
    pastCaret (s ++ w) = pastCaret s ++ w ∧ (accept? false '^' (s ++ w)).isSome = (accept? false '^' s).isSome := by
  cases h : accept? false '^' s with
  | none => simp only [pastCaret, accept?_append_of_none w hs h, h, Option.getD_none, and_self]
  | some r => simp only [pastCaret, accept?_append w h, h, Option.getD_some, Option.isSome_some, and_self]

theorem pastCaret_suffix (s : Text) : pastCaret s <:+ s := by
  cases h : accept? false '^' s with
  | none => simp only [pastCaret, h, Option.getD_none, List.suffix_rfl]
  | some r =>
    simp only [pastCaret, h, Option.getD_some]
    exact suffix_of_accept h

theorem mem_pastCaret {s : Text} {c : Char} (hc : c ≠ '^') (h : c ∈ s) : c ∈ pastCaret s := by
  cases s with
  | nil => simp at h
  | cons d s =>
    simp only [pastCaret, accept?, next?_false_cons]
    split
    · rename_i hd
      rcases List.mem_cons.1 h with rfl | h
      · exact absurd hd.symm hc
      · exact h
    · exact h

theorem isPropertyValueChar_bracket : isPropertyValueChar ']' = false := by decide

/-- a value is read the same in front of more text, and the closing bracket is still to come -/
theorem pastValue?_append {s : Text} (w : Text) (hb : ']' ∈ s) :
    pastValue? false (s ++ w) = (pastValue? false s).map (· ++ w) ∧ ∀ r, pastValue? false s = some r → ']' ∈ r := by
  cases s with
  | nil => simp at hb
  | cons c s =>
    by_cases hc : c = ':' ∨ c = '='
    · have hb' : ']' ∈ s := by rcases hc with rfl | rfl <;> simpa using hb
      have hd := mem_dropWhile isPropertyValueChar_bracket hb'
      obtain ⟨h1, h2⟩ := takeWhile_append_of_dropWhile w (List.ne_nil_of_mem hd)
      simp only [pastValue?, List.cons_append, next?_false_cons, takeRun, Bool.false_eq_true, if_false, h1, h2, hc, true_and]
      split
      · refine ⟨rfl, fun r hr => ?_⟩
        exact Option.some.inj hr ▸ hd
      · exact ⟨rfl, nofun⟩
    · simp [pastValue?, next?_false_cons, hc]

/-- what is no value up to a closing brace is none in front of more text -/
theorem bracedValue_append_of_none {s : Text} (w : Text) (hb : ']' ∈ s)
    (h : (pastValue? false s).bind (accept? false '}') = none) :
    (pastValue? false (s ++ w)).bind (accept? false '}') = none := by
  obtain ⟨hvalue, hmem⟩ := pastValue?_append w hb
  rw [hvalue]
  cases hs : pastValue? false s with
  | none => rfl
  | some r =>
    rw [hs, Option.bind_some] at h
    exact accept?_append_of_none w (List.ne_nil_of_mem (hmem r hs)) h

theorem bracedProperty_append {negated : Bool} {s r : Text} {i : SetItem} (w : Text)
    (h : bracedProperty false negated s = .ok (some (i, r))) :
    bracedProperty false negated (s ++ w) = .ok (some (i, r ++ w)) ∧ r <:+ s := by
  simp only [bracedProperty, takeRun, Bool.false_eq_true, if_false] at h ⊢
  cases ha : accept? false '}' (s.dropWhile isPropertyNameChar) with
  | none =>
    simp only [ha] at h
    split at h <;> cases h
  | some rest =>
    have hd : s.dropWhile isPropertyNameChar ≠ [] := fun hn => by simp [hn, accept?, next?_false_nil] at ha
    obtain ⟨h1, h2⟩ := takeWhile_append_of_dropWhile w hd
    rw [h1, h2, accept?_append w ha]
    simp only [ha] at h ⊢
    obtain ⟨p, hp, he⟩ := map_eq_ok_iff.1 h
    obtain ⟨rfl, rfl⟩ := Prod.mk.inj (Option.some.inj he)
    rw [hp]
    exact ⟨rfl, (suffix_of_accept ha).trans (List.dropWhile_suffix _)⟩

theorem bracedProperty_append_of_none {negated : Bool} {s : Text} (w : Text) (hb : ']' ∈ s)
    (h : bracedProperty false negated s = .ok none) : bracedProperty false negated (s ++ w) = .ok none := by
  have hmem := mem_dropWhile isPropertyNameChar_bracket hb
  have hd := List.ne_nil_of_mem hmem
  obtain ⟨h1, h2⟩ := takeWhile_append_of_dropWhile w hd
  simp only [bracedProperty, takeRun, Bool.false_eq_true, if_false, h1, h2] at h ⊢
  cases ha : accept? false '}' (s.dropWhile isPropertyNameChar) with
  | none =>
    rw [accept?_append_of_none w hd ha]
    simp only [ha] at h
    split at h
    · cases h
    · rename_i hvalue
      simp only [bracedValue_append_of_none w hmem hvalue]
  | some rest =>
    simp only [ha] at h
    obtain ⟨p, -, he⟩ := map_eq_ok_iff.1 h
    cases he

theorem propertyEscape_brace (negated : Bool) (s : Text) : propertyEscape false negated ('{' :: s) =
    bracedProperty false (negated != (accept? false '^' s).isSome) (pastCaret s) := by
  simp only [propertyEscape, next?_false_cons, pastCaret]
  cases accept? false '^' s <;> simp

theorem propertyEscape_letter {c : Char} (hc : c ≠ '{') (negated : Bool) (s : Text) :
    propertyEscape false negated (c :: s) =
      if c ∈ "CLMNPSZ".toList then (property [c]).map fun p => some (.property p negated, s) else .ok none := by
  simp only [propertyEscape, next?_false_cons]

theorem propertyEscape_append {negated : Bool} {s r : Text} {i : SetItem} (w : Text)
    (h : propertyEscape false negated s = .ok (some (i, r))) :
    propertyEscape false negated (s ++ w) = .ok (some (i, r ++ w)) ∧ r <:+ s := by
  cases s with
  | nil => simp [propertyEscape, next?_false_nil] at h
  | cons c s =>
    by_cases hc : c = '{'
    · subst hc
      rw [List.cons_append, propertyEscape_brace]
      rw [propertyEscape_brace] at h
      have hs : s ≠ [] := by
        rintro rfl
        cases h
      obtain ⟨h1, h2⟩ := pastCaret_append w hs
      rw [h1, h2]
      exact (bracedProperty_append w h).imp_right fun hr => (hr.trans (pastCaret_suffix s)).trans (List.suffix_cons _ _)
    · rw [List.cons_append, propertyEscape_letter hc]
      rw [propertyEscape_letter hc] at h
      split at h
      · rename_i hl
        rw [if_pos hl]
        obtain ⟨p, hp, he⟩ := map_eq_ok_iff.1 h
        obtain ⟨rfl, rfl⟩ := Prod.mk.inj (Option.some.inj he)
        rw [hp]
        exact ⟨rfl, List.suffix_cons c s⟩
      · simp at h

/-- a letter that is just a letter stays one, if a closing bracket follows -/
theorem propertyEscape_append_of_none {negated : Bool} {s : Text} (w : Text) (hb : ']' ∈ s)
    (h : propertyEscape false negated s = .ok none) : propertyEscape false negated (s ++ w) = .ok none := by
  cases s with
  | nil => simp at hb
  | cons c s =>
    by_cases hc : c = '{'
    · subst hc
      have hb' : ']' ∈ s := by simpa using hb
      obtain ⟨h1, h2⟩ := pastCaret_append w (List.ne_nil_of_mem hb')
      rw [propertyEscape_brace] at h
      rw [List.cons_append, propertyEscape_brace, h1, h2]
      exact bracedProperty_append_of_none w (mem_pastCaret (by decide) hb') h
    · rw [propertyEscape_letter hc] at h
      rw [List.cons_append, propertyEscape_letter hc]
      split at h
      · obtain ⟨p, -, he⟩ := map_eq_ok_iff.1 h
        simp at he
      · rename_i hl
        rw [if_neg hl]

theorem octalDigit?_append {s r : Text} {c : Char} (w : Text) (h : octalDigit? false s = some (c, r)) :
    octalDigit? false (s ++ w) = some (c, r ++ w) ∧ r <:+ s := by
  cases s with
  | nil => simp [octalDigit?, next?_false_nil] at h
  | cons d s =>
    simp only [octalDigit?, List.cons_append, next?_false_cons] at h ⊢
    split at h
    · rename_i hd
      simp only [Option.some.injEq, Prod.mk.injEq] at h
      obtain ⟨rfl, rfl⟩ := h
      rw [if_pos hd]
      exact ⟨rfl, List.suffix_cons d s⟩
    · simp at h

theorem octalDigit?_append_of_none {s : Text} (w : Text) (hs : s ≠ []) (h : octalDigit? false s = none) :
    octalDigit? false (s ++ w) = none := by
  cases s with
  | nil => exact absurd rfl hs
  | cons d s =>
    simp only [octalDigit?, List.cons_append, next?_false_cons] at h ⊢
    split at h
    · simp at h
    · rename_i hd
      rw [if_neg hd]

theorem octalEscape_local (first : Char) : ReadsLocally (octalEscape false first) := by
  intro s r e w h hb
  have hr : r ≠ [] := List.ne_nil_of_mem hb
  simp only [octalEscape] at h ⊢
  split at h
  · simp at h
  · rename_i ho
    rw [if_neg ho]
    cases h1 : octalDigit? false s with
    | none =>
      simp only [h1, Except.ok.injEq, Prod.mk.injEq] at h
      rw [octalDigit?_append_of_none w (h.2 ▸ hr) h1]
      simp only [h.1, h.2]
      exact ⟨trivial, List.suffix_rfl⟩
    | some x =>
      obtain ⟨second, rest⟩ := x
      obtain ⟨h1a, h1s⟩ := octalDigit?_append w h1
      simp only [h1] at h
      simp only [h1a]
      cases h2 : octalDigit? false rest with
      | none =>
        simp only [h2, Except.ok.injEq, Prod.mk.injEq] at h
        rw [octalDigit?_append_of_none w (h.2 ▸ hr) h2]
        simp only [h.1, h.2]
        exact ⟨trivial, h.2 ▸ h1s⟩
      | some y =>
        obtain ⟨third, more⟩ := y
        obtain ⟨h2a, h2s⟩ := octalDigit?_append w h2
        simp only [h2, Except.ok.injEq, Prod.mk.injEq] at h
        rw [h2a]
        simp only [h.1, h.2]
        exact ⟨trivial, h.2 ▸ h2s.trans h1s⟩

/-- a letter that may begin a property, and is itself where it does not -/
theorem propertyLetter_local (negated : Bool) (code : ℕ) : ReadsLocally fun s =>
    match propertyEscape false negated s with
    | .error f => .error f
    | .ok (some (item, rest)) => .ok (.item item, rest)
    | .ok none => .ok (Escaped.code code, s) := by
  intro s r e w h hb
  cases hp : propertyEscape false negated s with
  | error f => simp [hp] at h
  | ok o =>
    simp only [hp] at h
    cases o with
    | none =>
      obtain ⟨rfl, rfl⟩ := Prod.mk.inj (Except.ok.inj h)
      simp only [propertyEscape_append_of_none w hb hp]
      exact ⟨trivial, List.suffix_rfl⟩
    | some x =>
      obtain ⟨h1, h2⟩ := propertyEscape_append w hp
      obtain ⟨rfl, rfl⟩ := Prod.mk.inj (Except.ok.inj h)
      simp only [h1]
      exact ⟨trivial, h2⟩

/-- an escape in a set is read locally -/
theorem escape_local (wrap : ℕ) : ReadsLocally (escape wrap false true) := by
  intro s r e w h hb
  cases s with
  | nil => simp [escape] at h
  | cons c s =>
    have hrest : ReadsLocally fun rest => escape wrap false true (c :: rest) := by
      unfold escape
      apply ReadsLocally.ite _ (hexEscape_local 2 0)
      apply ReadsLocally.ite _ (hexEscape_local 4 0)
      apply ReadsLocally.ite _ (hexEscape_local 8 0)
      apply ReadsLocally.ite _ (propertyLetter_local _ _)
      apply ReadsLocally.ite
      · cases classLetter? c with
        | some item => exact ReadsLocally.ok _
        | none =>
          cases controlLetter? c with
          | some n => exact ReadsLocally.ok _
          | none => exact ReadsLocally.error _
      apply ReadsLocally.ite
      · simp only [true_or, if_true]
        exact octalEscape_local c
      · exact ReadsLocally.ok _
    obtain ⟨h1, h2⟩ := hrest w h hb
    exact ⟨h1, h2.trans (List.suffix_cons c s)⟩

/-! ## Members -/

/-- the text behind the caret that negates a class or a set -/
def pastNegation (s : Text) : Bool × Text :=
  match s with
  | '^' :: rest => (true, rest)
  | _ => (false, s)

theorem pastNegation_append {s : Text} (w : Text) (hs : s ≠ []) :
    pastNegation (s ++ w) = ((pastNegation s).1, (pastNegation s).2 ++ w) := by
  cases s with
  | nil => exact absurd rfl hs
  | cons c s =>
    by_cases hc : c = '^'
    · subst hc
      rfl
    · simp [pastNegation, hc]

theorem pastNegation_suffix (s : Text) : (pastNegation s).2 <:+ s := by
  unfold pastNegation
  split
  · exact List.suffix_cons _ _
  · exact List.suffix_rfl

theorem mem_pastNegation {s : Text} {c : Char} (hc : c ≠ '^') (h : c ∈ s) : c ∈ (pastNegation s).2 := by
  unfold pastNegation
  split
  · rcases List.mem_cons.1 h with rfl | h
    · exact absurd rfl hc
    · exact h
  · exact h

theorem bracketClass_eq (s : Text) : bracketClass s =
    closedClass (pastNegation s).1 ((pastNegation s).2.takeWhile isPropertyNameChar)
      ((pastNegation s).2.dropWhile isPropertyNameChar) := rfl

theorem suffix_of_pastClass? {s r : Text} (h : pastClass? s = some r) : r <:+ s := by
  unfold pastClass? at h
  split at h
  · exact Option.some.inj h ▸ (List.suffix_cons _ _).trans (List.suffix_cons _ _)
  · cases h

theorem pastClass?_of_ne {c d : Char} (h : ¬(c = ':' ∧ d = ']')) (s : Text) : pastClass? (c :: d :: s) = none := by
  unfold pastClass?
  split
  · rename_i heq
    simp only [List.cons.injEq] at heq
    exact absurd ⟨heq.1, heq.2.1⟩ h
  · rfl

/-- the first two characters decide, and with a closing bracket to come they are still the first two -/
theorem pastClass?_append {s : Text} (w : Text) (hb : ']' ∈ s) : pastClass? (s ++ w) = (pastClass? s).map (· ++ w) := by
  match s with
  | [] => simp at hb
  | [c] =>
    obtain rfl : ']' = c := by simpa using hb
    rfl
  | c :: d :: rest =>
    by_cases hcd : c = ':' ∧ d = ']'
    · obtain ⟨rfl, rfl⟩ := hcd
      rfl
    · rw [List.cons_append, List.cons_append, pastClass?_of_ne hcd, pastClass?_of_ne hcd]
      rfl

/-- what stands behind a class between bracketed colons -/
theorem suffix_of_bracketClass {s r : Text} {i : SetItem} (h : bracketClass s = .ok (some (i, r))) : r <:+ s := by
  have hsuffix : (pastNegation s).2.dropWhile isPropertyNameChar <:+ s :=
    (List.dropWhile_suffix _).trans (pastNegation_suffix s)
  rw [bracketClass_eq] at h
  unfold closedClass at h
  split at h
  · rename_i rest heq
    have hrest : rest <:+ s := (suffix_of_pastClass? heq).trans hsuffix
    split at h
    · simp only [Except.ok.injEq, Option.some.injEq, Prod.mk.injEq] at h
      exact h.2 ▸ hrest
    · obtain ⟨p, -, he⟩ := map_eq_ok_iff.1 h
      exact (Prod.mk.inj (Option.some.inj he)).2 ▸ hrest
  · split at h <;> cases h

theorem closedClass_append {negated : Bool} {name s : Text} {o : Option (SetItem × Text)} (w : Text) (hb : ']' ∈ s)
    (h : closedClass negated name s = .ok o) :
    closedClass negated name (s ++ w) = .ok (o.map fun x => (x.1, x.2 ++ w)) := by
  unfold closedClass at h ⊢
  rw [pastClass?_append w hb]
  cases hs : pastClass? s with
  | some rest =>
    simp only [hs, Option.map_some] at h ⊢
    cases hl : bracketClassNames.lookup (normalName name) with
    | some p =>
      simp only [hl, Except.ok.injEq] at h ⊢
      subst h
      rfl
    | none =>
      simp only [hl] at h ⊢
      obtain ⟨p, hp, rfl⟩ := map_eq_ok_iff.1 h
      rw [hp]
      rfl
  | none =>
    obtain ⟨hvalue, hmem⟩ := pastValue?_append w hb
    simp only [hs, Option.map_none, hvalue] at h ⊢
    cases hp : pastValue? false s with
    | none =>
      simp only [hp, Option.bind_none, Option.map_none] at h ⊢
      obtain rfl := Except.ok.inj h
      rfl
    | some r =>
      simp only [hp, Option.bind_some, Option.map_some, pastClass?_append w (hmem r hp)] at h ⊢
      cases hr : pastClass? r with
      | some t => simp [hr] at h
      | none =>
        simp only [hr] at h
        obtain rfl := Except.ok.inj h
        rfl

/-- a class between bracketed colons, or the text that is none, is read the same in front of more text -/
theorem bracketClass_append {s : Text} {o : Option (SetItem × Text)} (w : Text) (hb : ']' ∈ s)
    (h : bracketClass s = .ok o) : bracketClass (s ++ w) = .ok (o.map fun x => (x.1, x.2 ++ w)) := by
  have hd : ']' ∈ (pastNegation s).2.dropWhile isPropertyNameChar :=
    mem_dropWhile isPropertyNameChar_bracket (mem_pastNegation (by decide) hb)
  obtain ⟨h1, h2⟩ := takeWhile_append_of_dropWhile w (List.ne_nil_of_mem hd)
  rw [bracketClass_eq] at h
  rw [bracketClass_eq, pastNegation_append w (List.ne_nil_of_mem hb)]
  simp only [h1, h2]
  exact closedClass_append w hd h

/-- a character that opens neither an escape nor a class is a member itself -/
theorem setElement_char {c : Char} {s : Text} (hc : c ≠ '\\') (hs : c = '[' → s.head? ≠ some ':') :
    setElement (c :: s) = .ok (.code c.toNat, s) := by
  unfold setElement
  split
  · rename_i heq
    simp at heq
  · rename_i heq
    simp only [List.cons.injEq] at heq
    exact absurd heq.1 hc
  · rename_i heq
    simp only [List.cons.injEq] at heq
    exact absurd (by rw [heq.2]; rfl) (hs heq.1)
  · rename_i heq
    simp only [List.cons.injEq] at heq
    rw [heq.1, heq.2]

/-- one element of a set is read locally -/
theorem setElement_local : ReadsLocally setElement := by
  intro s r e w h hb
  cases s with
  | nil => simp [setElement] at h
  | cons c s =>
    by_cases hbackslash : c = '\\'
    · subst hbackslash
      obtain ⟨h1, h2⟩ := escape_local _ w h hb
      exact ⟨h1, h2.trans (List.suffix_cons _ _)⟩
    by_cases hclass : ∃ rest, c :: s = '[' :: ':' :: rest
    · obtain ⟨rest, hs⟩ := hclass
      obtain ⟨rfl, rfl⟩ : c = '[' ∧ s = ':' :: rest := by simpa using hs
      have hrest : rest <:+ '[' :: ':' :: rest := (List.suffix_cons _ _).trans (List.suffix_cons _ _)
      simp only [setElement, List.cons_append] at h ⊢
      cases hbc : bracketClass rest with
      | error f => simp [hbc] at h
      | ok o =>
        cases o with
        | none =>
          simp only [hbc, Except.ok.injEq, Prod.mk.injEq] at h
          obtain ⟨rfl, rfl⟩ := h
          have hb' : ']' ∈ rest := by simpa using hb
          rw [bracketClass_append w hb' hbc]
          exact ⟨rfl, List.suffix_cons _ _⟩
        | some x =>
          obtain ⟨item, more⟩ := x
          simp only [hbc, Except.ok.injEq, Prod.mk.injEq] at h
          obtain ⟨rfl, rfl⟩ := h
          have hmore := suffix_of_bracketClass hbc
          rw [bracketClass_append w (hmore.mem hb) hbc]
          exact ⟨rfl, hmore.trans hrest⟩
    · have hs : c = '[' → s.head? ≠ some ':' := by
        rintro rfl hh
        obtain ⟨rest, rfl⟩ := List.head?_eq_some_iff.1 hh
        exact hclass ⟨rest, rfl⟩
      rw [setElement_char hbackslash hs] at h
      simp only [Except.ok.injEq, Prod.mk.injEq] at h
      obtain ⟨rfl, rfl⟩ := h
      have hs' : c = '[' → (s ++ w).head? ≠ some ':' := by
        rw [List.head?_append_of_ne_nil s (List.ne_nil_of_mem hb)]
        exact hs
      rw [List.cons_append, setElement_char hbackslash hs']
      exact ⟨rfl, List.suffix_cons _ _⟩

/-- what a member that begins with a character and a dash becomes -/
def afterDash (lo : ℕ) (s : Text) : Except Fault (List SetItem × Text) :=
  match s with
  | ']' :: _ => .ok ([.range lo lo, .range 0x2D 0x2D], s)
  | _ =>
    match setElement s with
    | .error f => .error f
    | .ok (.code hi, rest) => if lo ≤ hi then .ok ([.range lo hi], rest) else .error .badRange
    | .ok (other, rest) => .ok ([.range lo lo, .range 0x2D 0x2D, other.toItem], rest)

theorem setMember_eq (s : Text) : setMember s =
    match setElement s with
    | .error f => .error f
    | .ok (.code lo, '-' :: rest) => afterDash lo rest
    | .ok (e, rest) => .ok ([e.toItem], rest) := rfl

theorem setMember_of_dash {s rest : Text} {lo : ℕ} (h : setElement s = .ok (.code lo, '-' :: rest)) :
    setMember s = afterDash lo rest := by
  rw [setMember_eq, h]
  rfl

/-- an element that no dash follows is a member -/
theorem setMember_of_element {s rest : Text} {a : Escaped} (h : setElement s = .ok (a, rest))
    (hdash : rest.head? ≠ some '-') : setMember s = .ok ([a.toItem], rest) := by
  rw [setMember_eq, h]
  split
  · exact nomatch ‹Except.ok _ = Except.error _›
  · rename_i heq
    obtain ⟨-, rfl⟩ := Prod.mk.inj (Except.ok.inj heq)
    exact absurd rfl hdash
  · rename_i heq
    obtain ⟨rfl, rfl⟩ := Prod.mk.inj (Except.ok.inj heq)
    rfl

theorem afterDash_bracket (lo : ℕ) (s : Text) :
    afterDash lo (']' :: s) = .ok ([.range lo lo, .range 0x2D 0x2D], ']' :: s) := rfl

theorem afterDash_of_ne {s : Text} (hs : s.head? ≠ some ']') (lo : ℕ) : afterDash lo s =
    match setElement s with
    | .error f => .error f
    | .ok (.code hi, rest) => if lo ≤ hi then .ok ([.range lo hi], rest) else .error .badRange
    | .ok (other, rest) => .ok ([.range lo lo, .range 0x2D 0x2D, other.toItem], rest) := by
  unfold afterDash
  split
  · simp at hs
  · rfl

theorem afterDash_local (lo : ℕ) : ReadsLocally (afterDash lo) := by
  intro s r items w h hb
  by_cases hs : s.head? = some ']'
  · obtain ⟨more, rfl⟩ := List.head?_eq_some_iff.1 hs
    rw [afterDash_bracket] at h
    simp only [Except.ok.injEq, Prod.mk.injEq] at h
    obtain ⟨rfl, rfl⟩ := h
    rw [List.cons_append, afterDash_bracket]
    exact ⟨rfl, List.suffix_rfl⟩
  · rw [afterDash_of_ne hs] at h
    cases he : setElement s with
    | error f => simp [he] at h
    | ok x =>
      obtain ⟨e, rest⟩ := x
      have hrest : rest = r := by
        rw [he] at h
        cases e with
        | code hi =>
          simp only at h
          split at h
          · simpa using (Prod.mk.inj (Except.ok.inj h)).2
          · simp at h
        | _ => exact (Prod.mk.inj (Except.ok.inj h)).2
      subst hrest
      obtain ⟨h1, h2⟩ := setElement_local w he hb
      have hne : s ≠ [] := by
        rintro rfl
        simp [setElement] at he
      have hs' : (s ++ w).head? ≠ some ']' := by rwa [List.head?_append_of_ne_nil s hne]
      rw [afterDash_of_ne hs', h1]
      rw [he] at h
      refine ⟨?_, h2⟩
      cases e with
      | code hi =>
        simp only at h ⊢
        split at h
        · rename_i hle
          rw [if_pos hle, ← (Prod.mk.inj (Except.ok.inj h)).1]
        · simp at h
      | _ => rw [← (Prod.mk.inj (Except.ok.inj h)).1]

/-- a member of a set is read locally -/
theorem setMember_local : ReadsLocally setMember := by
  intro s r items w h hb
  rw [setMember_eq] at h ⊢
  split at h
  · simp at h
  · rename_i lo rest he
    obtain ⟨h3, h4⟩ := afterDash_local lo w h hb
    obtain ⟨h1, h2⟩ := setElement_local w he (List.mem_cons_of_mem _ (h4.mem hb))
    rw [h1]
    exact ⟨h3, h4.trans ((List.suffix_cons _ _).trans h2)⟩
  · rename_i e rest hnot he
    simp only [Except.ok.injEq, Prod.mk.injEq] at h
    obtain ⟨rfl, rfl⟩ := h
    obtain ⟨h1, h2⟩ := setElement_local w he hb
    rw [h1]
    refine ⟨?_, h2⟩
    split
    · rename_i heq
      simp at heq
    · rename_i lo more heq
      simp only [Except.ok.injEq, Prod.mk.injEq] at heq
      cases rest with
      | nil => simp at hb
      | cons c rest =>
        simp only [List.cons_append, List.cons.injEq] at heq
        exact (hnot lo rest heq.1 (by rw [heq.2.1])).elim
    · rename_i heq
      simp only [Except.ok.injEq, Prod.mk.injEq] at heq
      rw [heq.1, heq.2]

/-- the members of a set are read up to a closing bracket -/
theorem mem_of_setMembers {s : Text} {x : List SetItem × Text} (h : setMembers s = .ok x) : ']' ∈ s := by
  fun_induction setMembers s generalizing x with
  | case1 => simp at h
  | case2 rest => exact List.mem_cons_self
  | case3 => simp at h
  | case4 c s hc items rest hm hlen ih =>
    obtain ⟨y, hr, -⟩ := map_eq_ok_iff.1 h
    have hb := ih hr
    exact (setMember_local [] hm hb).2.mem hb
  | case5 => simp at h

/-- the members of a set are read the same in front of more text -/
theorem setMembers_append {s r : Text} {items : List SetItem} (w : Text) (h : setMembers s = .ok (items, r)) :
    setMembers (s ++ w) = .ok (items, r ++ w) := by
  fun_induction setMembers s generalizing items r with
  | case1 => simp at h
  | case2 rest =>
    simp only [Except.ok.injEq, Prod.mk.injEq] at h
    rw [List.cons_append, setMembers, ← h.1, ← h.2]
  | case3 => simp at h
  | case4 c s hc first rest hm hlen ih =>
    obtain ⟨⟨more, left⟩, hr, he⟩ := map_eq_ok_iff.1 h
    obtain ⟨rfl, rfl⟩ := Prod.mk.inj he
    have hm' := (setMember_local w hm (mem_of_setMembers hr)).1
    rw [List.cons_append] at hm'
    have hlen' : (rest ++ w).length ≤ (s ++ w).length := by
      rw [List.length_append, List.length_append]
      omega
    rw [List.cons_append, setMembers]
    · simp only [hm', hlen', if_true, ih hr]
      rfl
    · exact hc
  | case5 => simp at h

/-- what is left behind the members of a set stands behind a closing bracket -/
theorem suffix_of_setMembers {s r : Text} {items : List SetItem} (h : setMembers s = .ok (items, r)) :
    ']' :: r <:+ s := by
  fun_induction setMembers s generalizing items r with
  | case1 => simp at h
  | case2 rest =>
    simp only [Except.ok.injEq, Prod.mk.injEq] at h
    rw [h.2]
  | case3 => simp at h
  | case4 c s hc first rest hm hlen ih =>
    obtain ⟨⟨more, left⟩, hr, he⟩ := map_eq_ok_iff.1 h
    obtain ⟨-, rfl⟩ := Prod.mk.inj he
    exact (ih hr).trans (setMember_local [] hm (mem_of_setMembers hr)).2
  | case5 => simp at h

theorem set_eq (caseless : Bool) (s : Text) : set caseless s =
    match setMember (pastNegation s).2 with
    | .error f => .error f
    | .ok (items, rest) =>
      (setMembers rest).map fun (more, rest) => (.ofItems (items ++ more) (pastNegation s).1 caseless, rest) := rfl

/-- what is left behind a set stands behind a closing bracket -/
theorem suffix_of_set {caseless : Bool} {s r : Text} {t : CharTest} (h : set caseless s = .ok (t, r)) :
    ']' :: r <:+ s := by
  rw [set_eq] at h
  cases hm : setMember (pastNegation s).2 with
  | error f => simp [hm] at h
  | ok x =>
    obtain ⟨items, rest⟩ := x
    rw [hm] at h
    obtain ⟨⟨more, left⟩, hr, he⟩ := map_eq_ok_iff.1 h
    obtain ⟨-, rfl⟩ := Prod.mk.inj he
    exact ((suffix_of_setMembers hr).trans (setMember_local [] hm (mem_of_setMembers hr)).2).trans
      (pastNegation_suffix s)

/-- **A set is read the same in front of more text** -/
theorem set_append {caseless : Bool} {s r : Text} {t : CharTest} (w : Text) (h : set caseless s = .ok (t, r)) :
    set caseless (s ++ w) = .ok (t, r ++ w) := by
  rw [set_eq] at h ⊢
  cases hm : setMember (pastNegation s).2 with
  | error f => simp [hm] at h
  | ok x =>
    obtain ⟨items, rest⟩ := x
    rw [hm] at h
    obtain ⟨⟨more, left⟩, hr, he⟩ := map_eq_ok_iff.1 h
    obtain ⟨rfl, rfl⟩ := Prod.mk.inj he
    have hs : s ≠ [] := by
      rintro rfl
      simp [pastNegation, setMember, setElement] at hm
    rw [pastNegation_append w hs]
    simp only [(setMember_local w hm (mem_of_setMembers hr)).1, setMembers_append w hr]
    rfl

end UriRouting.Regex
