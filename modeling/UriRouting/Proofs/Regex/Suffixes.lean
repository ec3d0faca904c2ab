/-
What is left of a source is an end of it. Each reader takes its piece off the front, with the blanks and comments before it
where these are skipped, under any flags; so wherever a reading stands, the source that is left stands there in the whole.

- `suffix_of_next?`, `suffix_of_takeRun`: the readers of characters.
- `suffix_of_escape`, `suffix_of_parenthesis`: what begins with a backslash or a parenthesis.
- `suffix_of_step`: each element of a source.
-/
import UriRouting.Proofs.Regex.Tail
import UriRouting.Regex.Parser

namespace UriRouting.Regex

open Results

variable {v : Bool} {s r : Text}

/-! ## Characters -/

theorem suffix_of_pastBlanks (comment : Bool) (s : Text) : pastBlanks comment s <:+ s := by
  fun_induction pastBlanks comment s with
  | case1 => exact List.suffix_rfl
  | case2 c rest ih => exact ih.trans (List.suffix_cons c rest)
  | case3 c rest _ ih => exact ih.trans (List.suffix_cons c rest)
  | case4 rest _ ih => exact ih.trans (List.suffix_cons _ rest)
  | case5 c rest _ _ => exact List.suffix_rfl

theorem suffix_of_next? {c : Char} (h : next? v s = some (c, r)) : r <:+ s := by
  have hskip : skip v s <:+ s := by
    unfold skip
    split
    · exact suffix_of_pastBlanks false s
    · exact List.suffix_rfl
  rw [next?_eq_some_iff] at h
  rw [h] at hskip
  exact (List.suffix_cons c r).trans hskip

theorem suffix_of_accept? {c : Char} (h : accept? v c s = some r) : r <:+ s := by
  unfold accept? at h
  split at h
  · rename_i hnext
    split at h
    · exact Option.some.inj h ▸ suffix_of_next? hnext
    · cases h
  · cases h

theorem suffix_of_takeCounting (p : Char → Bool) (comment : Bool) (s : Text) : (takeCounting p comment s).2 <:+ s := by
  fun_induction takeCounting p comment s with
  | case1 => exact List.suffix_rfl
  | case2 c rest ih => exact ih.trans (List.suffix_cons c rest)
  | case3 c rest _ ih => exact ih.trans (List.suffix_cons c rest)
  | case4 rest _ ih => exact ih.trans (List.suffix_cons _ rest)
  | case5 c rest _ _ _ ih => exact ih.trans (List.suffix_cons c rest)
  | case6 c rest _ _ _ => exact List.suffix_rfl

theorem suffix_of_takeRun (v : Bool) (p : Char → Bool) (s : Text) : (takeRun v p s).2 <:+ s := by
  unfold takeRun
  split
  · exact suffix_of_takeCounting p false s
  · exact List.dropWhile_suffix p

/-! ## Quantifiers -/

theorem suffix_of_limits? {limits : Limits} (h : limits? v s = .ok (some (limits, r))) : r <:+ s := by
  have hchecked : ∀ {lower upper rest}, limits?.checked v lower upper rest = .ok (some (limits, r)) → r <:+ rest := by
    intro lower upper rest h
    unfold limits?.checked at h
    split at h
    · cases h
    split at h
    · cases h
    split at h
    · obtain ⟨more, hmore, heq⟩ := Option.map_eq_some_iff.1 (Except.ok.inj h)
      exact (Prod.mk.inj heq).2 ▸ suffix_of_accept? hmore
    · cases h
  have hlower := suffix_of_takeRun v isDigit s
  unfold limits? at h
  simp only at h
  split at h
  · rename_i rest hcomma
    exact (hchecked h).trans ((suffix_of_takeRun v isDigit rest).trans ((suffix_of_accept? hcomma).trans hlower))
  · split at h
    · cases h
    · exact (hchecked h).trans hlower

theorem suffix_greed (v : Bool) (s : Text) : (greed v s).2 <:+ s := by
  unfold greed
  split
  · rename_i hnext
    exact suffix_of_next? hnext
  · rename_i hnext
    exact suffix_of_next? hnext
  · exact List.suffix_rfl

/-! ## Names -/

theorem suffix_of_groupName {name : Text} (h : groupName v s = .ok (name, r)) : r <:+ s := by
  unfold groupName at h
  simp only at h
  split at h
  · exact (Prod.mk.inj (Except.ok.inj h)).2 ▸ suffix_of_takeRun v _ s
  · cases h

theorem suffix_of_groupReference {reference : Reference} (h : groupReference v s = .ok (reference, r)) : r <:+ s := by
  have htext : ∀ {x : Reference}, (Except.ok (x, (groupText v s).2) : Except Fault (Reference × Text)) = .ok (reference, r) →
      r <:+ s := fun heq => (Prod.mk.inj (Except.ok.inj heq)).2 ▸ suffix_of_takeRun v _ s
  unfold groupReference at h
  simp only at h
  split at h
  · split at h
    · cases h
    · exact htext h
    · cases h
  · split at h
    · exact htext h
    · cases h

theorem suffix_of_angleReference {reference : Reference} (h : angleReference v s = .ok (reference, r)) : r <:+ s := by
  unfold angleReference at h
  split at h
  · cases h
  · rename_i behind hopen
    split at h
    · cases h
    · rename_i x rest hreference
      split at h
      · cases h
      · rename_i more hclose
        obtain ⟨-, rfl⟩ := Prod.mk.inj (Except.ok.inj h)
        exact (suffix_of_accept? hclose).trans ((suffix_of_groupReference hreference).trans (suffix_of_accept? hopen))

/-! ## Flags -/

theorem suffix_of_flagChange {change : Flags × Flags} (h : flagChange v s = .ok (change, r)) : r <:+ s := by
  have hon : (flagLetters v s).2 <:+ s := suffix_of_takeRun v _ s
  unfold flagChange at h
  simp only at h
  split at h
  · exact (Prod.mk.inj (Except.ok.inj h)).2 ▸ hon
  · rename_i rest hdash
    split at h
    · cases h
    · have hoff : (flagLetters v rest).2 <:+ rest := suffix_of_takeRun v _ rest
      exact (Prod.mk.inj (Except.ok.inj h)).2 ▸ hoff.trans ((suffix_of_accept? hdash).trans hon)

/-! ## Escapes -/

theorem eq_of_property {p : Except Fault Property} {negated : Bool} {rest : Text} {item : SetItem}
    (h : p.map (fun p => some (SetItem.property p negated, rest)) = .ok (some (item, r))) : r = rest := by
  obtain ⟨x, -, heq⟩ := map_eq_ok_iff.1 h
  exact (Prod.mk.inj (Option.some.inj heq)).2.symm

theorem suffix_of_bracedProperty {negated : Bool} {item : SetItem}
    (h : bracedProperty v negated s = .ok (some (item, r))) : r <:+ s := by
  unfold bracedProperty at h
  simp only at h
  split at h
  · rename_i rest hclose
    obtain rfl := eq_of_property h
    exact (suffix_of_accept? hclose).trans (suffix_of_takeRun v _ s)
  · split at h <;> cases h

theorem suffix_of_propertyEscape {negated : Bool} {item : SetItem}
    (h : propertyEscape v negated s = .ok (some (item, r))) : r <:+ s := by
  cases hnext : next? v s with
  | none =>
    rw [propertyEscape, hnext] at h
    cases h
  | some x =>
    obtain ⟨c, rest⟩ := x
    rw [propertyEscape_of_next? hnext] at h
    refine List.IsSuffix.trans ?_ (suffix_of_next? hnext)
    split at h
    · split at h
      · rename_i more hcaret
        exact (suffix_of_bracedProperty h).trans (suffix_of_accept? hcaret)
      · exact suffix_of_bracedProperty h
    · unfold letterProperty at h
      split at h
      · exact eq_of_property h ▸ List.suffix_rfl
      · cases h

theorem suffix_of_hexEscape {k n : ℕ} {e : Escaped} (h : hexEscape v k n s = .ok (e, r)) : r <:+ s := by
  induction k generalizing n s with
  | zero =>
    unfold hexEscape at h
    split at h
    · exact (Prod.mk.inj (Except.ok.inj h)).2 ▸ List.suffix_rfl
    · cases h
  | succ k ih =>
    unfold hexEscape at h
    split at h
    · rename_i c rest hnext
      split at h
      · exact (ih h).trans (suffix_of_next? hnext)
      · cases h
    · cases h

theorem suffix_of_octalDigit? {c : Char} (h : octalDigit? v s = some (c, r)) : r <:+ s := by
  unfold octalDigit? at h
  split at h
  · rename_i hnext
    split at h
    · exact (Prod.mk.inj (Option.some.inj h)).2 ▸ suffix_of_next? hnext
    · cases h
  · cases h

theorem suffix_of_octalEscape {first : Char} {e : Escaped} (h : octalEscape v first s = .ok (e, r)) : r <:+ s := by
  unfold octalEscape at h
  split at h
  · cases h
  · split at h
    · exact (Prod.mk.inj (Except.ok.inj h)).2 ▸ List.suffix_rfl
    · rename_i second rest hsecond
      split at h
      · exact (Prod.mk.inj (Except.ok.inj h)).2 ▸ suffix_of_octalDigit? hsecond
      · rename_i third more hthird
        exact (Prod.mk.inj (Except.ok.inj h)).2 ▸ (suffix_of_octalDigit? hthird).trans (suffix_of_octalDigit? hsecond)

theorem suffix_numberEscape (wrap : ℕ) (v : Bool) (first : Char) (s : Text) : (numberEscape wrap v first s).2 <:+ s := by
  unfold numberEscape
  split
  · rename_i second rest hsecond
    split
    · split
      · rename_i third more hthird
        split
        · exact (suffix_of_octalDigit? hthird).trans (suffix_of_next? hsecond)
        · exact suffix_of_next? hsecond
      · exact suffix_of_next? hsecond
    · exact List.suffix_rfl
  · exact List.suffix_rfl

theorem suffix_of_escape {wrap : ℕ} {e : Escaped} (h : escape wrap v false s = .ok (e, r)) : r <:+ s := by
  unfold escape at h
  split at h
  · cases h
  · rename_i c rest
    suffices r <:+ rest from this.trans (List.suffix_cons c rest)
    have hrest : ∀ {x : Escaped}, (Except.ok (x, rest) : Except Fault (Escaped × Text)) = .ok (e, r) → r <:+ rest :=
      fun heq => (Prod.mk.inj (Except.ok.inj heq)).2 ▸ List.suffix_rfl
    split at h
    · exact suffix_of_hexEscape h
    split at h
    · exact suffix_of_hexEscape h
    split at h
    · exact suffix_of_hexEscape h
    split at h
    · split at h
      · cases h
      · rename_i item more hproperty
        exact (Prod.mk.inj (Except.ok.inj h)).2 ▸ suffix_of_propertyEscape hproperty
      · exact hrest h
    split at h
    · split at h
      · exact hrest h
      · exact hrest h
      · exact hrest h
      · cases h
    split at h
    · split at h
      · exact suffix_of_octalEscape h
      · have hnumber : (numberEscape wrap v c rest).2 = r := congrArg Prod.snd (Except.ok.inj h)
        exact hnumber ▸ suffix_numberEscape wrap v c rest
    · exact hrest h

/-! ## Elements -/

namespace Machine

variable {m n : Machine}

theorem suffix_of_ok {k : Machine} {t : Text} (h : Except.ok (k, t) = (Except.ok (n, r) : Except Fault (Machine × Text)))
    (ht : t <:+ s) : r <:+ s := (Prod.mk.inj (Except.ok.inj h)).2 ▸ ht

theorem suffix_of_map {α : Type} {k : Except Fault α} {f : α → Machine} {t : Text} (h : k.map (fun x => (f x, t)) = .ok (n, r))
    (ht : t <:+ s) : r <:+ s := by
  obtain ⟨x, -, heq⟩ := map_eq_ok_iff.1 h
  exact (Prod.mk.inj heq).2 ▸ ht

theorem suffix_of_repeatLast {limits : Limits} (h : m.repeatLast limits s = .ok (n, r)) : r <:+ s := by
  unfold repeatLast at h
  split at h
  · cases h
  · exact suffix_of_ok h (suffix_greed m.verbose s)

theorem suffix_of_flagGroup (h : m.flagGroup s = .ok (n, r)) : r <:+ s := by
  unfold flagGroup at h
  split at h
  · cases h
  · rename_i rest hchange
    have hsuffix := suffix_of_flagChange hchange
    simp only at h
    split at h
    · rename_i hcolon
      exact suffix_of_ok h ((suffix_of_accept? hcolon).trans hsuffix)
    · rename_i hclose
      exact suffix_of_ok h ((suffix_of_accept? hclose).trans hsuffix)
    · cases h

theorem suffix_of_namedGroup (h : m.namedGroup s = .ok (n, r)) : r <:+ s := by
  unfold namedGroup at h
  split at h
  · cases h
  · rename_i hname
    split at h
    · cases h
    · rename_i hclose
      exact suffix_of_ok h ((suffix_of_accept? hclose).trans (suffix_of_groupName hname))

theorem suffix_of_namedReference (h : m.namedReference s = .ok (n, r)) : r <:+ s := by
  unfold namedReference at h
  split at h
  · cases h
  · rename_i hreference
    split at h
    · cases h
    · rename_i hclose
      exact suffix_of_map h ((suffix_of_accept? hclose).trans (suffix_of_groupReference hreference))

theorem suffix_of_parenthesis (h : m.parenthesis s = .ok (n, r)) : r <:+ s := by
  have htwo : ∀ {c d : Char} {rest : Text}, rest <:+ c :: d :: rest := (List.suffix_cons _ _).trans (List.suffix_cons _ _)
  unfold parenthesis at h
  split at h
  · refine List.IsSuffix.trans ?_ htwo
    split at h
    · rename_i hnext
      exact suffix_of_ok h (suffix_of_next? hnext)
    · rename_i hnext
      exact suffix_of_ok h (suffix_of_next? hnext)
    · exact suffix_of_namedGroup h
  · exact suffix_of_ok h htwo
  · exact suffix_of_ok h htwo
  · exact suffix_of_ok h htwo
  · split at h
    · rename_i hcomment
      exact suffix_of_ok h ((suffix_of_pastComment hcomment).trans htwo)
    · cases h
  · refine List.IsSuffix.trans ?_ htwo
    split at h
    · rename_i hnext
      exact (suffix_of_namedGroup h).trans (suffix_of_next? hnext)
    · rename_i hnext
      exact (suffix_of_namedReference h).trans (suffix_of_next? hnext)
    · cases h
  · exact (suffix_of_flagGroup h).trans (List.suffix_cons _ _)
  · split at h
    · cases h
    · exact suffix_of_ok h List.suffix_rfl
  · exact suffix_of_ok h List.suffix_rfl

theorem suffix_of_step_angle (h : m.angleReference s = .ok (n, r)) : r <:+ s := by
  unfold angleReference at h
  split at h
  · rename_i hreference
    split at h
    · exact suffix_of_ok h List.suffix_rfl
    · exact suffix_of_ok h (suffix_of_angleReference hreference)
  · cases h
  · exact suffix_of_ok h List.suffix_rfl

/-- **What an element leaves is an end of its source** -/
theorem suffix_of_step {c : Char} (h : m.step c s = .ok (n, r)) : r <:+ s := by
  unfold step at h
  split at h
  · exact suffix_of_ok h List.suffix_rfl
  · exact suffix_of_map h List.suffix_rfl
  · exact suffix_of_parenthesis h
  · exact (suffix_of_step_angle h).trans (List.suffix_cons _ _)
  · split at h
    · cases h
    · rename_i hescape
      exact suffix_of_map h (suffix_of_escape hescape)
  · exact suffix_of_ok h List.suffix_rfl
  · obtain ⟨x, hset, heq⟩ := map_eq_ok_iff.1 h
    exact (Prod.mk.inj heq).2 ▸ (List.suffix_cons _ _).trans (suffix_of_set hset)
  · exact suffix_of_ok h List.suffix_rfl
  · exact suffix_of_ok h List.suffix_rfl
  · exact suffix_of_repeatLast h
  · exact suffix_of_repeatLast h
  · exact suffix_of_repeatLast h
  · split at h
    · cases h
    · exact suffix_of_map h List.suffix_rfl
    · rename_i hlimits
      exact (suffix_of_repeatLast h).trans (suffix_of_limits? hlimits)
  · exact suffix_of_ok h List.suffix_rfl

end Machine

end UriRouting.Regex
