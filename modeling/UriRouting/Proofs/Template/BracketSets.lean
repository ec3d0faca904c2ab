/-
What an expanded bracket expression matches. The reader of expressions takes the expansion for a set with the items of its
members, one after the other: no member makes a range with its neighbour, and none closes the set. So the expression
matches a single character that one of its members stands for, or, when it is negated, one that none of them stands for.

- `setMembers_written`: a member in front of others is read by itself.
- `holds_items`: what the items of a member hold is what the member stands for.
- `matches_union`: what a bracket expression matches.
-/
import UriRouting.Proofs.Regex.FullMatch
import UriRouting.Proofs.Regex.Reading
import UriRouting.Proofs.Template.Brackets

namespace UriRouting.Regex

/-! ## Reading the members of a set -/

def prepend (items : List SetItem) (r : Except Fault (List SetItem × Text)) : Except Fault (List SetItem × Text) :=
  r.map fun x => (items ++ x.1, x.2)

theorem prepend_prepend (items more : List SetItem) (r : Except Fault (List SetItem × Text)) :
    prepend items (prepend more r) = prepend (items ++ more) r := by
  cases r with
  | error f => rfl
  | ok x => exact congrArg (fun l => Except.ok (l, x.2)) (List.append_assoc items more x.1).symm

/-- two characters with a dash between -/
theorem setMember_of_range {s t u : Text} {lo hi : ℕ} (h : setElement s = .ok (.code lo, '-' :: t)) (ht : t.head? ≠ some ']')
    (hhi : setElement t = .ok (.code hi, u)) (hle : lo ≤ hi) : setMember s = .ok ([.range lo hi], u) := by
  rw [setMember_of_dash h, afterDash_of_ne ht, hhi]
  simp only [if_pos hle]

/-- a member, then the others -/
theorem setMembers_cons {c : Char} (piece : Text) {t : Text} {items : List SetItem} (hc : c ≠ ']')
    (h : setMember (c :: (piece ++ t)) = .ok (items, t)) : setMembers (c :: (piece ++ t)) = prepend items (setMembers t) := by
  have hlength : t.length ≤ (piece ++ t).length := (List.suffix_append piece t).length_le
  rw [setMembers]
  · simp only [h, if_pos hlength]
    rfl
  · exact hc

/-- members that are read make a set -/
theorem set_of_setMembers {s t : Text} {items : List SetItem} (h : setMembers s = .ok (items, t)) (hs : s.head? ≠ some ']')
    {negated : Bool} {source : Text} (hsource : pastNegation source = (negated, s)) :
    set false source = .ok (.ofItems items negated false, t) := by
  rw [set_eq, hsource]
  cases s with
  | nil => simp [setMembers] at h
  | cons c s =>
    have hc : c ≠ ']' := fun hcb => hs (congrArg some hcb)
    rw [setMembers] at h
    · cases hm : setMember (c :: s) with
      | error f => simp [hm] at h
      | ok first =>
        simp only [hm] at h ⊢
        split at h
        · obtain ⟨more, hmore, heq⟩ := Results.map_eq_ok_iff.1 h
          obtain ⟨rfl, rfl⟩ := Prod.mk.inj heq
          rw [hmore]
          rfl
        · cases h
    · exact hc

/-! ## A set as an expression -/

theorem holds_range (lo hi c : Char) :
    SetItem.holds false [c.toNat] (.range lo.toNat hi.toNat) = (decide (lo ≤ c) && decide (c ≤ hi)) := by
  have hle : ∀ a b : Char, decide (a.toNat ≤ b.toNat) = decide (a ≤ b) := fun a b => decide_eq_decide.2 Iff.rfl
  simp only [SetItem.holds, List.any_cons, List.any_nil, Bool.or_false, hle]

theorem holds_property (p : Property) (c : Char) :
    SetItem.holds false [c.toNat] (.property p false) = p.holds c.toNat := by
  simp [SetItem.holds, Property.holdsIn]

theorem holds_char (d c : Char) : SetItem.holds false [c.toNat] (.range d.toNat d.toNat) = (c == d) := by
  rw [holds_range, Bool.eq_iff_iff, Bool.and_eq_true, decide_eq_true_iff, decide_eq_true_iff, beq_iff_eq]
  refine ⟨?_, ?_⟩
  · intro h
    exact Char.le_antisymm h.2 h.1
  · rintro rfl
    exact ⟨Char.le_refl c, Char.le_refl c⟩

/-- as a test, items are asked one by one, also where they are one class alone -/
theorem accepts_ofItems (items : List SetItem) (negated : Bool) (c : Char) :
    (CharTest.ofItems items negated false).accepts false c = (items.any (SetItem.holds false [c.toNat]) != negated) := by
  unfold CharTest.ofItems
  split
  · rename_i p n
    cases n <;> cases negated <;> simp [CharTest.accepts, SetItem.holds]
  · rfl

def Program.ofTest (test : CharTest) : Program := ⟨.char test, 0, [], false⟩

/-- a set on its own is a whole source -/
theorem parse_set {s : Text} {test : CharTest} (h : set false s = .ok (test, [])) : parse ('[' :: s) = .ok (.ofTest test) := by
  have hrun : Machine.start.run ('[' :: s) = .ok (Machine.start.push (.char test)) := by
    calc Machine.start.run ('[' :: s)
        = Machine.start.run ('[' :: s ++ []) := by rw [List.append_nil]
      _ = (Machine.start.push (.char test)).run [] := Machine.run_set rfl h []
      _ = .ok (Machine.start.push (.char test)) := Machine.run_nil _
  rw [parse, hrun]
  rfl

/-- one character is matched by a test that accepts it -/
theorem isSome_fullMatch_ofTest (test : CharTest) (c : Char) :
    ((Program.ofTest test).fullMatch [c]).isSome = test.accepts false c := by
  have houtcomes : (Program.ofTest test).outcomes (Program.ofTest test).root .forward (.start [c]) =
      (if test.accepts false c then some ⟨[c], [], 1, [], rfl⟩ else none : Option State).toList := rfl
  rw [Program.fullMatch_eq_find?, houtcomes]
  cases test.accepts false c <;> rfl

end UriRouting.Regex

namespace UriRouting.Template

open Regex

/-! ## The items of the members -/

def CharClass.items : CharClass → List SetItem
  | alpha => [.property .letter false]
  | digit => [.property .decimalDigit false]
  | alnum => [.property .letter false, .property .decimalDigit false]
  | xdigit => [.range 0x30 0x39, .range 0x61 0x66, .range 0x41 0x46]
  | ascii => [.range 0 0x7F]

def Member.items : Member → List SetItem
  | char c | escaped c => [.range c.toNat c.toNat]
  | range lo hi => [.range lo.toNat hi.toNat]
  | shorthand k _ => k.items
  | dash => [.range 0x2D 0x2D]

/-- the classes of an expression in front of other members -/
theorem setMembers_letter (t : Text) :
    setMembers ("\\p\x7bL\x7d".toList ++ t) = prepend [.property .letter false] (setMembers t) := by
  have hmember : setMember ('\\' :: ("p\x7bL\x7d".toList ++ t)) = .ok ([.property .letter false], t) := rfl
  exact setMembers_cons _ (by decide) hmember

theorem setMembers_decimalDigit (t : Text) :
    setMembers ("\\p\x7bNd\x7d".toList ++ t) = prepend [.property .decimalDigit false] (setMembers t) := by
  have hmember : setMember ('\\' :: ("p\x7bNd\x7d".toList ++ t)) = .ok ([.property .decimalDigit false], t) := rfl
  exact setMembers_cons _ (by decide) hmember

/-- a range of characters that begin nothing else -/
theorem setMembers_range {lo hi : Char} (hlo : lo ∉ "\\[]".toList) (hhi : hi ∉ "\\[]".toList) (hle : lo ≤ hi) (t : Text) :
    setMembers (lo :: '-' :: hi :: t) = prepend [.range lo.toNat hi.toNat] (setMembers t) := by
  have helement : ∀ c : Char, c ∉ "\\[]".toList → ∀ u, setElement (c :: u) = .ok (.code c.toNat, u) := by
    intro c hc u
    have hne : ∀ d ∈ "\\[]".toList, c ≠ d := fun d hd => (ne_of_mem_of_not_mem hd hc).symm
    exact setElement_char (hne _ (by decide)) fun h => absurd h (hne _ (by decide))
  have hclose : ∀ c : Char, c ∉ "\\[]".toList → c ≠ ']' := fun c hc => (ne_of_mem_of_not_mem (by decide) hc).symm
  have hmember : setMember (lo :: '-' :: hi :: t) = .ok ([.range lo.toNat hi.toNat], t) := by
    apply setMember_of_range (helement lo hlo _) _ (helement hi hhi t) hle
    exact fun h => hclose hi hhi (Option.some.inj h)
  exact setMembers_cons ['-', hi] (hclose lo hlo) hmember

theorem setMembers_members (k : CharClass) (t : Text) :
    setMembers (k.members ++ t) = prepend k.items (setMembers t) := by
  cases k with
  | alpha => exact setMembers_letter t
  | digit => exact setMembers_decimalDigit t
  | alnum =>
    calc setMembers ("\\p\x7bL\x7d".toList ++ ("\\p\x7bNd\x7d".toList ++ t))
        = prepend [.property .letter false] (prepend [.property .decimalDigit false] (setMembers t)) := by
          rw [setMembers_letter, setMembers_decimalDigit]
      _ = prepend [.property .letter false, .property .decimalDigit false] (setMembers t) := prepend_prepend _ _ _
  | xdigit =>
    calc setMembers ('0' :: '-' :: '9' :: 'a' :: '-' :: 'f' :: 'A' :: '-' :: 'F' :: t)
        = prepend [.range 0x30 0x39] (prepend [.range 0x61 0x66] (prepend [.range 0x41 0x46] (setMembers t))) := by
          rw [setMembers_range (by decide) (by decide) (by decide), setMembers_range (by decide) (by decide) (by decide),
            setMembers_range (by decide) (by decide) (by decide)]
          rfl
      _ = prepend [.range 0x30 0x39, .range 0x61 0x66, .range 0x41 0x46] (setMembers t) := by
          rw [prepend_prepend, prepend_prepend]
          rfl
  | ascii =>
    have hmember : setMember ('\\' :: ("x00-\\x7F".toList ++ t)) = .ok ([.range 0 0x7F], t) := rfl
    exact setMembers_cons _ (by decide) hmember

/-- what is neither a letter nor a digit is meant by its escape -/
theorem escape_of_not_alphanum {c : Char} (hc : c.isAlphanum = false) (t : Text) :
    escape 0x200 false true (c :: t) = .ok (.code c.toNat, t) := by
  have hne : ∀ d : Char, d.isAlphanum = true → c ≠ d := fun d hd => (alphanum_ne hd hc).symm
  have hp : ¬(c = 'p' ∨ c = 'P') := fun h => h.elim (hne 'p' (by decide)) (hne 'P' (by decide))
  obtain ⟨halpha, hdigit⟩ : c.isAlpha = false ∧ c.isDigit = false := by
    rwa [Char.isAlphanum, Bool.or_eq_false_iff] at hc
  have hdigit' : isDigit c = false := hdigit
  rw [escape, if_neg (hne 'x' (by decide)), if_neg (hne 'u' (by decide)), if_neg (hne 'U' (by decide)), if_neg hp, halpha,
    hdigit']
  rfl

/-- **A member is read by itself**, in front of anything but a dash -/
theorem setMembers_written {m : Member} (hm : m.IsProper) {t : Text} (ht : t.head? ≠ some '-') :
    setMembers (m.written ++ t) = prepend m.items (setMembers t) := by
  cases m with
  | char c =>
    have hne : ∀ d ∈ "\\[]-^:".toList, c ≠ d := fun d hd => (ne_of_mem_of_not_mem hd hm).symm
    have helement : setElement (c :: t) = .ok (.code c.toNat, t) :=
      setElement_char (hne _ (by decide)) fun h => absurd h (hne _ (by decide))
    exact setMembers_cons [] (hne _ (by decide)) (setMember_of_element helement ht)
  | range lo hi =>
    exact setMembers_range (not_mem_of_alphanum hm.1 (by decide)) (not_mem_of_alphanum hm.2.1 (by decide)) hm.2.2 t
  | escaped c =>
    have helement : setElement ('\\' :: c :: t) = .ok (.code c.toNat, t) := escape_of_not_alphanum hm t
    exact setMembers_cons [c] (by decide) (setMember_of_element helement ht)
  | shorthand k bracketed => exact setMembers_members k t
  | dash =>
    have helement : setElement ('\\' :: '-' :: t) = .ok (.code 0x2D, t) :=
      escape_of_not_alphanum (c := '-') (by decide) t
    exact setMembers_cons ['-'] (by decide) (setMember_of_element helement ht)

/-! ## What the items hold -/

theorem holds_classItems (k : CharClass) (c : Char) : k.items.any (SetItem.holds false [c.toNat]) = k.holds c := by
  cases k with
  | alpha => simp [CharClass.items, CharClass.holds, holds_property, Property.holds]
  | digit => simp [CharClass.items, CharClass.holds, holds_property, Property.holds]
  | alnum => simp [CharClass.items, CharClass.holds, holds_property, Property.holds]
  | xdigit =>
    have hranges : CharClass.xdigit.items = [.range '0'.toNat '9'.toNat, .range 'a'.toNat 'f'.toNat,
      .range 'A'.toNat 'F'.toNat] := rfl
    simp only [hranges, List.any_cons, List.any_nil, Bool.or_false, holds_range, CharClass.holds, Bool.or_assoc]
  | ascii =>
    have hbound : decide (c.toNat ≤ 0x7F) = decide (c.toNat < 0x80) := decide_eq_decide.2 Nat.lt_succ_iff.symm
    simp [CharClass.items, CharClass.holds, SetItem.holds, hbound]

/-- **What a set holds is what its members stand for** -/
theorem holds_items (m : Member) (c : Char) : m.items.any (SetItem.holds false [c.toNat]) = m.holds c := by
  cases m with
  | char d | escaped d =>
    rw [Member.items, List.any_cons, holds_char]
    exact Bool.or_false _
  | range lo hi =>
    rw [Member.items, List.any_cons, holds_range]
    exact Bool.or_false _
  | shorthand k bracketed => exact holds_classItems k c
  | dash =>
    have hdash : Member.dash.items = [.range '-'.toNat '-'.toNat] := rfl
    rw [hdash, List.any_cons, holds_char]
    exact Bool.or_false _

/-! ## Bracket expressions -/

/-- **The items of all members**, up to the closing bracket -/
theorem setMembers_flatMap {members : List Member} (hm : ∀ m ∈ members, m.IsProper) :
    setMembers (members.flatMap Member.written ++ [']']) = .ok (members.flatMap Member.items, []) := by
  induction members with
  | nil =>
    rw [List.flatMap_nil, List.nil_append, setMembers]
    rfl
  | cons m members ih =>
    obtain ⟨hm, hms⟩ := List.forall_mem_cons.1 hm
    have hnext : (members.flatMap Member.written ++ [']']).head? ≠ some '-' := by
      cases members with
      | nil => decide
      | cons n members =>
        obtain ⟨c, more, hwritten, -, -, hc⟩ := Member.exists_written_eq (hms n List.mem_cons_self)
        rw [List.flatMap_cons, hwritten]
        exact fun h => hc (Option.some.inj h)
    rw [List.flatMap_cons, List.append_assoc, setMembers_written hm hnext, ih hms]
    rfl

namespace Bracket

variable (b : Bracket)

theorem set_written : set false (b.sign ++ (b.members.flatMap Member.written ++ [']'])) =
    .ok (.ofItems (b.members.flatMap Member.items) b.negated false, []) := by
  obtain ⟨m, members, hmembers⟩ := List.exists_cons_of_ne_nil b.nonempty
  obtain ⟨c, more, hwritten, hcaret, hclose, -⟩ := Member.exists_written_eq (b.proper m (hmembers ▸ List.mem_cons_self))
  have hstart : b.members.flatMap Member.written ++ [']'] = c :: (more ++ members.flatMap Member.written ++ [']']) := by
    rw [hmembers, List.flatMap_cons, hwritten, List.cons_append, List.cons_append]
  apply set_of_setMembers (setMembers_flatMap b.proper)
  · rw [hstart]
    exact fun h => hclose (Option.some.inj h)
  · rw [hstart, sign]
    cases b.negated with
    | true => rfl
    | false => simp [pastNegation, hcaret]

theorem any_items (c : Char) : (b.members.flatMap Member.items).any (SetItem.holds false [c.toNat]) = true ↔
    ∃ m ∈ b.members, m.holds c = true := by
  simp only [List.any_flatMap, holds_items, List.any_eq_true]

/-- **A bracket expression is the union of its members.** It is expanded, the expansion is an expression, and this matches
a single character as the members tell, or as they do not, when it is negated. Shorthands may be spelled either way. -/
theorem matches_union : ∃ source program, expand b.text = .ok source ∧ parse source = .ok program ∧
    (∀ c, (program.fullMatch [c]).isSome = true ↔ b.holds c) ∧
    ∀ b', b.IsRespelled b' → expand b'.text = .ok source := by
  let test := CharTest.ofItems (b.members.flatMap Member.items) b.negated false
  refine ⟨b.written, .ofTest test, b.expand_text, ?_, ?_, ?_⟩
  · rw [written, List.cons_append, List.append_assoc]
    exact parse_set b.set_written
  · intro c
    rw [isSome_fullMatch_ofTest, accepts_ofItems, holds, ← any_items]
    cases b.negated with
    | true => simp
    | false => simp
  · intro b' h
    rw [b'.expand_text, written_eq_of_isRespelled h]

/-- a member of each kind, with dashes at a range, between shorthands and at the end -/
theorem matches_union_mixed :
    let members : Bool → List Member := fun bracketed =>
      [.char '+', .range 'a' 'f', .dash, .shorthand .digit bracketed, .dash, .shorthand .alpha false, .escaped ']',
        .shorthand .ascii bracketed, .dash]
    let b : Bracket := ⟨true, members true, by decide, by decide, by decide⟩
    let b' : Bracket := ⟨true, members false, by decide, by decide, by decide⟩
    b.text = "[^+a-f-[:digit:]-:alpha:\\][:ascii:]-]".toList ∧ b'.text = "[^+a-f-:digit:-:alpha:\\]:ascii:-]".toList ∧
    ∃ source program, expand b.text = .ok source ∧ expand b'.text = .ok source ∧ parse source = .ok program ∧
      source = "[^+a-f\\-\\p\x7bNd\x7d\\-\\p\x7bL\x7d\\]\\x00-\\x7F\\-]".toList ∧
      ∀ c, (program.fullMatch [c]).isSome = true ↔ b.holds c := by
  intro members b b'
  obtain ⟨source, program, hexpand, hparse, hmatch, hspell⟩ := b.matches_union
  have hspelled := hspell b' ⟨rfl, rfl⟩
  have hwritten : source = b.written := Except.ok.inj (hexpand.symm.trans b.expand_text)
  exact ⟨rfl, rfl, source, program, hexpand, hspelled, hparse, hwritten, hmatch⟩

end Bracket

end UriRouting.Template
