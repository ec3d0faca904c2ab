/-
Bracket expressions in constraints. One is put together from members: characters, ranges, escapes, shorthands in either
spelling, and dashes beside a shorthand. Its expansion writes each member on its own: the members of a class for a
shorthand, an escaped dash for a lone one, and any other member as it stands.

- `expandFrom_members`: the scan of the members, whatever stands next to what.
- `Bracket.expand_text`: the expansion of a whole expression, which does not depend on how its shorthands are spelled.
-/
import UriRouting.Codepoint.DecimalDigit
import UriRouting.Codepoint.Letter
import UriRouting.Proofs.Template.Expand

namespace UriRouting.Template

/-! ## Members -/

/-- what a bracket expression lists -/
inductive Member where
  | char (c : Char)
  | range (lo hi : Char)
  | escaped (c : Char)
  /-- a shorthand, perhaps in brackets of its own -/
  | shorthand (k : CharClass) (bracketed : Bool)
  /-- a dash that is no part of a range -/
  | dash
deriving DecidableEq, Repr

def CharClass.holds : CharClass → Char → Bool
  | alpha, c => Codepoint.isLetter c.toNat
  | digit, c => Codepoint.isDecimalDigit c.toNat
  | alnum, c => Codepoint.isLetter c.toNat || Codepoint.isDecimalDigit c.toNat
  | xdigit, c => ('0' ≤ c && c ≤ '9') || ('a' ≤ c && c ≤ 'f') || ('A' ≤ c && c ≤ 'F')
  | ascii, c => c.toNat < 0x80

namespace Member

/-- the member in a constraint -/
def text : Member → Text
  | char c => [c]
  | range lo hi => [lo, '-', hi]
  | escaped c => ['\\', c]
  | shorthand k bracketed => if bracketed then k.bracketed else k.spelling
  | dash => ['-']

/-- the member in the expansion -/
def written : Member → Text
  | char c => [c]
  | range lo hi => [lo, '-', hi]
  | escaped c => ['\\', c]
  | shorthand k _ => k.members
  | dash => "\\-".toList

/-- the characters that the member stands for -/
def holds : Member → Char → Bool
  | char d, c => c == d
  | range lo hi, c => lo ≤ c && c ≤ hi
  | escaped d, c => c == d
  | shorthand k _, c => k.holds c
  | dash, c => c == '-'

def isShorthand : Member → Bool
  | shorthand _ _ => true
  | _ => false

/-- the member with the brackets of a shorthand taken off -/
def plain : Member → Member
  | shorthand k _ => shorthand k false
  | m => m

/-- a member that can be read as itself: a character without a meaning of its own in brackets, a range of letters and
digits in their order, an escape of what is neither letter nor digit -/
def IsProper : Member → Prop
  | char c => c ∉ "\\[]-^:".toList
  | range lo hi => lo.isAlphanum = true ∧ hi.isAlphanum = true ∧ lo ≤ hi
  | escaped c => c.isAlphanum = false
  | shorthand _ _ | dash => True

instance decidableIsProper : (m : Member) → Decidable m.IsProper
  | char c => inferInstanceAs (Decidable (c ∉ _))
  | range _ _ => inferInstanceAs (Decidable (_ ∧ _ ∧ _))
  | escaped _ => inferInstanceAs (Decidable (_ = false))
  | shorthand _ _ | dash => inferInstanceAs (Decidable True)

theorem written_plain (m : Member) : m.plain.written = m.written := by
  cases m with
  | _ => rfl

theorem eq_shorthand {m : Member} (h : m.isShorthand = true) : ∃ k bracketed, m = shorthand k bracketed := by
  cases m with
  | shorthand k bracketed => exact ⟨k, bracketed, rfl⟩
  | _ => exact Bool.noConfusion h

end Member

/-- each dash stands directly behind a shorthand or directly before one; at first behind one, if so told -/
def DashesBeside (behind : Bool) : List Member → Prop
  | [] => True
  | m :: rest => (m = .dash → behind = true ∨ rest.head?.any Member.isShorthand = true) ∧ DashesBeside m.isShorthand rest

instance decidableDashesBeside (behind : Bool) : (members : List Member) → Decidable (DashesBeside behind members)
  | [] => inferInstanceAs (Decidable True)
  | m :: rest =>
    have := decidableDashesBeside m.isShorthand rest
    inferInstanceAs (Decidable ((m = .dash → _) ∧ _))

/-! ## Shorthands and dashes, found -/

theorem memberAt?_eq_none {c : Char} (hcolon : c ≠ ':') (hopen : c ≠ '[') (t : Text) : memberAt? (c :: t) = none := by
  have hc : (':' == c) = false := beq_eq_false_iff_ne.2 hcolon.symm
  have ho : ('[' == c) = false := beq_eq_false_iff_ne.2 hopen.symm
  have hnone : CharClass.all.find? (fun _ => false) = none := rfl
  simp [memberAt?, CharClass.bracketed, CharClass.spelling, List.isPrefixOf, hc, ho, hnone]

/-- a shorthand is found in either spelling -/
theorem memberAt?_shorthand (k : CharClass) (bracketed : Bool) (t : Text) :
    memberAt? ((Member.shorthand k bracketed).text ++ t) = some (k, (Member.shorthand k bracketed).text.length) := by
  cases bracketed with
  | true => cases k <;> rfl
  | false => cases k <;> rfl

theorem isSome_memberAt? {members : List Member} (h : members.head?.any Member.isShorthand = true) (t : Text) :
    (memberAt? (members.flatMap Member.text ++ t)).isSome = true := by
  cases members with
  | nil => exact Bool.noConfusion h
  | cons m members =>
    obtain ⟨k, bracketed, rfl⟩ := Member.eq_shorthand h
    rw [List.flatMap_cons, List.append_assoc, memberAt?_shorthand]
    rfl

/-- a letter or a digit is no sign -/
theorem alphanum_ne {c d : Char} (hc : c.isAlphanum = true) (hd : d.isAlphanum = false) : c ≠ d := by
  rintro rfl
  rw [hc] at hd
  exact Bool.noConfusion hd

theorem not_mem_of_alphanum {c : Char} {signs : Text} (hc : c.isAlphanum = true)
    (hsigns : signs.all (!·.isAlphanum) = true) : c ∉ signs := by
  intro hin
  have hsign := List.all_eq_true.1 hsigns c hin
  rw [hc] at hsign
  exact Bool.noConfusion hsign

/-- no member begins as the sign or the end of an expression does, and only a dash begins with one -/
theorem Member.exists_text_eq {m : Member} (hm : m.IsProper) :
    ∃ c more, m.text = c :: more ∧ c ≠ '^' ∧ c ≠ ']' ∧ (m ≠ .dash → c ≠ '-') := by
  cases m with
  | char c =>
    have hne : ∀ d ∈ "\\[]-^:".toList, c ≠ d := fun d hd => (ne_of_mem_of_not_mem hd hm).symm
    exact ⟨c, [], rfl, hne _ (by decide), hne _ (by decide), fun _ => hne _ (by decide)⟩
  | range lo hi =>
    exact ⟨lo, _, rfl, alphanum_ne hm.1 (by decide), alphanum_ne hm.1 (by decide), fun _ => alphanum_ne hm.1 (by decide)⟩
  | escaped c => exact ⟨'\\', _, rfl, by decide, by decide, fun _ => by decide⟩
  | shorthand k bracketed =>
    cases bracketed with
    | true => exact ⟨'[', _, rfl, by decide, by decide, fun _ => by decide⟩
    | false => exact ⟨':', _, rfl, by decide, by decide, fun _ => by decide⟩
  | dash => exact ⟨'-', _, rfl, by decide, by decide, fun h => absurd rfl h⟩

/-- nor is any written so that it could begin as one of these -/
theorem Member.exists_written_eq {m : Member} (hm : m.IsProper) :
    ∃ c more, m.written = c :: more ∧ c ≠ '^' ∧ c ≠ ']' ∧ c ≠ '-' := by
  cases m with
  | char _ | range _ _ | escaped _ =>
    obtain ⟨c, more, htext, hcaret, hclose, hdash⟩ := exists_text_eq hm
    exact ⟨c, more, htext, hcaret, hclose, hdash (by simp)⟩
  | shorthand k bracketed => cases k <;> exact ⟨_, _, rfl, by decide, by decide, by decide⟩
  | dash => exact ⟨'\\', _, rfl, by decide, by decide, by decide⟩

/-! ## The scan of one member -/

variable {opened position : ℕ}

theorem expandFrom_ordinary {c : Char} (hc : c ∉ "\\[]-^:".toList) (t : Text) :
    expandFrom (.within opened) position (c :: t) = emit [c] (expandFrom (.within opened) (position + 1) t) := by
  have hne : ∀ d ∈ "\\[]-^:".toList, c ≠ d := fun d hd => (ne_of_mem_of_not_mem hd hc).symm
  have hnone := memberAt?_eq_none (hne ':' (by decide)) (hne '[' (by decide)) t
  rw [expandFrom_within (hne _ (by decide)) (hne _ (by decide)) (hne _ (by decide)) hnone, if_neg]
  intro h
  exact hne '-' (by decide) h.1

/-- a dash is escaped before a shorthand -/
theorem expandFrom_dash (t : Text) : expandFrom (.within opened) position ('-' :: t) =
    emit (if (memberAt? t).isSome then "\\-".toList else ['-']) (expandFrom (.within opened) (position + 1) t) := by
  rw [expandFrom_within (by decide) (by decide) (by decide) (memberAt?_eq_none (by decide) (by decide) t)]
  simp only [true_and]

/-- the scan behind a shorthand, which takes a dash along -/
def behindShorthand (opened position : ℕ) (t : Text) : Except BracketFault Text :=
  if t.head? = some '-' then emit "\\-".toList (expandFrom (.within opened) (position + 1) (t.drop 1))
  else expandFrom (.within opened) position t

theorem expandFrom_shorthandMember (k : CharClass) (bracketed : Bool) (t : Text) :
    expandFrom (.within opened) position ((Member.shorthand k bracketed).text ++ t) =
      emit k.members (behindShorthand opened (position + (Member.shorthand k bracketed).text.length) t) := by
  obtain ⟨c, more, htext, hescape, hclose⟩ :
      ∃ c more, (Member.shorthand k bracketed).text = c :: more ∧ c ≠ '\\' ∧ c ≠ ']' := by
    cases bracketed with
    | true => exact ⟨'[', _, rfl, by decide, by decide⟩
    | false => exact ⟨':', _, rfl, by decide, by decide⟩
  have hfound := memberAt?_shorthand k bracketed t
  have hdrop : (more ++ t).drop ((c :: more).length - 1) = t := List.drop_left
  rw [htext, List.cons_append] at hfound ⊢
  rw [expandFrom_member hescape hclose hfound, memberText, memberEnd, hdrop, behindShorthand]
  by_cases hdash : t.head? = some '-'
  · have hpast : (more ++ t).drop ((c :: more).length - 1 + 1) = t.drop 1 := by rw [← List.drop_drop, hdrop]
    have hposition : position + 1 + ((c :: more).length - 1 + 1) = position + (c :: more).length + 1 := by
      rw [List.length_cons]
      omega
    rw [if_pos hdash, if_pos hdash, if_pos hdash, emit_emit, hpast, hposition]
  · have hposition : position + 1 + ((c :: more).length - 1) = position + (c :: more).length := by
      rw [List.length_cons]
      omega
    rw [if_neg hdash, if_neg hdash, if_neg hdash, List.append_nil, hdrop, hposition]

/-- a member that is neither a shorthand nor a dash is copied -/
theorem expandFrom_copied {m : Member} (hm : m.IsProper) (hshorthand : m.isShorthand = false) (hdash : m ≠ .dash)
    (t : Text) : expandFrom (.within opened) position (m.text ++ t) =
      emit m.written (expandFrom (.within opened) (position + m.text.length) t) := by
  cases m with
  | char c => exact expandFrom_ordinary hm t
  | range lo hi =>
    obtain ⟨hlo, hhi, -⟩ := hm
    have hhiNone := memberAt?_eq_none (alphanum_ne hhi (by decide)) (alphanum_ne hhi (by decide)) t
    calc expandFrom (.within opened) position (lo :: '-' :: hi :: t)
        = emit [lo] (expandFrom (.within opened) (position + 1) ('-' :: hi :: t)) :=
          expandFrom_ordinary (not_mem_of_alphanum hlo (by decide)) _
      _ = emit [lo] (emit ['-'] (expandFrom (.within opened) (position + 2) (hi :: t))) := by
          rw [expandFrom_dash, hhiNone]
          rfl
      _ = emit [lo] (emit ['-'] (emit [hi] (expandFrom (.within opened) (position + 3) t))) := by
          rw [expandFrom_ordinary (not_mem_of_alphanum hhi (by decide))]
      _ = emit [lo, '-', hi] (expandFrom (.within opened) (position + 3) t) := by
          rw [emit_emit, emit_emit]
          rfl
  | escaped c => exact expandFrom_escape _ _ _
  | shorthand k bracketed => cases hshorthand
  | dash => exact absurd rfl hdash

/-! ## The scan of all members -/

theorem expandFrom_end (position : ℕ) : expandFrom (.within opened) position [']'] = .ok [']'] := by
  rw [expandFrom_close, expandFrom]
  rfl

/-- **The members of a bracket expression are written one by one**, behind a shorthand or not -/
theorem expandFrom_members {members : List Member} (hm : ∀ m ∈ members, m.IsProper) :
    (DashesBeside false members → ∀ position,
      expandFrom (.within opened) position (members.flatMap Member.text ++ [']']) =
        .ok (members.flatMap Member.written ++ [']'])) ∧
    (DashesBeside true members → ∀ position, behindShorthand opened position (members.flatMap Member.text ++ [']']) =
      .ok (members.flatMap Member.written ++ [']'])) := by
  induction members with
  | nil =>
    refine ⟨?_, ?_⟩
    · intro _ position
      exact expandFrom_end position
    · intro _ position
      exact expandFrom_end position
  | cons m members ih =>
    obtain ⟨hm, hms⟩ := List.forall_mem_cons.1 hm
    obtain ⟨hscan, hbehind⟩ := ih hms
    have hself : DashesBeside false (m :: members) → ∀ position,
        expandFrom (.within opened) position ((m :: members).flatMap Member.text ++ [']']) =
          .ok ((m :: members).flatMap Member.written ++ [']']) := by
      intro hdashes position
      obtain ⟨hdash, hrest⟩ := hdashes
      rw [List.flatMap_cons, List.flatMap_cons, List.append_assoc, List.append_assoc]
      cases m with
      | shorthand k bracketed =>
        rw [expandFrom_shorthandMember, hbehind hrest, emit_ok]
        rfl
      | dash =>
        -- the one before it is no shorthand, so the one behind it is
        have hnext : members.head?.any Member.isShorthand = true := (hdash rfl).resolve_left Bool.false_ne_true
        calc expandFrom (.within opened) position ('-' :: (members.flatMap Member.text ++ [']']))
            = emit "\\-".toList (expandFrom (.within opened) (position + 1) (members.flatMap Member.text ++ [']'])) := by
              rw [expandFrom_dash, if_pos (isSome_memberAt? hnext _)]
          _ = .ok ("\\-".toList ++ (members.flatMap Member.written ++ [']'])) := by rw [hscan hrest, emit_ok]
      | char c => rw [expandFrom_copied hm rfl (by simp), hscan hrest, emit_ok]
      | range lo hi => rw [expandFrom_copied hm rfl (by simp), hscan hrest, emit_ok]
      | escaped c => rw [expandFrom_copied hm rfl (by simp), hscan hrest, emit_ok]
    refine ⟨hself, ?_⟩
    intro hdashes position
    by_cases hm' : m = .dash
    · subst hm'
      calc behindShorthand opened position ('-' :: (members.flatMap Member.text ++ [']']))
          = emit "\\-".toList (expandFrom (.within opened) (position + 1) (members.flatMap Member.text ++ [']'])) := rfl
        _ = .ok ("\\-".toList ++ (members.flatMap Member.written ++ [']'])) := by rw [hscan hdashes.2, emit_ok]
    · have hhead : ((m :: members).flatMap Member.text ++ [']']).head? ≠ some '-' := by
        obtain ⟨c, more, htext, -, -, hc⟩ := Member.exists_text_eq hm
        rw [List.flatMap_cons, htext]
        exact fun h => hc hm' (Option.some.inj h)
      rw [behindShorthand, if_neg hhead]
      exact hself ⟨fun h => absurd h hm', hdashes.2⟩ position

/-! ## Bracket expressions -/

/-- a bracket expression: its members in order, and whether it takes what none of them stands for -/
structure Bracket where
  negated : Bool
  members : List Member
  nonempty : members ≠ []
  proper : ∀ m ∈ members, m.IsProper
  dashes : DashesBeside false members

namespace Bracket

variable (b : Bracket)

def sign : Text := if b.negated then ['^'] else []

/-- the expression in a constraint -/
def text : Text := '[' :: (b.sign ++ b.members.flatMap Member.text) ++ [']']

/-- the expression in the expansion -/
def written : Text := '[' :: (b.sign ++ b.members.flatMap Member.written) ++ [']']

/-- the characters that the expression stands for -/
def holds (c : Char) : Prop :=
  if b.negated then ¬∃ m ∈ b.members, m.holds c = true else ∃ m ∈ b.members, m.holds c = true

/-- the sign, if there is one, is all that the opening takes -/
theorem opening_sign {c : Char} (hcaret : c ≠ '^') (hclose : c ≠ ']') (t : Text) :
    opening (b.sign ++ c :: t) = (b.sign.length, b.sign) := by
  rw [sign]
  split
  · simp [opening, hclose]
  · simp [opening, hcaret, hclose]

/-- **A bracket expression is expanded member by member** -/
theorem expand_text : expand b.text = .ok b.written := by
  obtain ⟨m, members, hmembers⟩ := List.exists_cons_of_ne_nil b.nonempty
  obtain ⟨c, more, htext, hcaret, hclose, -⟩ := Member.exists_text_eq (b.proper m (hmembers ▸ List.mem_cons_self))
  have hstart : b.members.flatMap Member.text = c :: (more ++ members.flatMap Member.text) := by
    rw [hmembers, List.flatMap_cons, htext, List.cons_append]
  have hopening : opening (b.sign ++ (b.members.flatMap Member.text ++ [']'])) = (b.sign.length, b.sign) := by
    rw [hstart, List.cons_append]
    exact b.opening_sign hcaret hclose _
  have hscan : ∀ position, expandFrom (.within 0) position (b.members.flatMap Member.text ++ [']']) =
      .ok (b.members.flatMap Member.written ++ [']']) := (expandFrom_members b.proper).1 b.dashes
  calc expand b.text
      = expandFrom .outside 0 ('[' :: (b.sign ++ (b.members.flatMap Member.text ++ [']']))) := by
        rw [expand, text, List.cons_append, List.append_assoc]
    _ = emit ('[' :: b.sign) (expandFrom (.within 0) (0 + 1 + b.sign.length) (b.members.flatMap Member.text ++ [']'])) := by
        rw [expandFrom_bracket, hopening, List.drop_left]
    _ = .ok b.written := by
        rw [hscan, emit_ok, written, List.cons_append, List.cons_append, List.append_assoc]

/-- the other expression differs in the spelling of shorthands at most -/
def IsRespelled (b' : Bracket) : Prop := b'.negated = b.negated ∧ b'.members.map Member.plain = b.members.map Member.plain

/-- what is written does not tell how a shorthand was spelled -/
theorem written_eq_of_isRespelled {b b' : Bracket} (h : b.IsRespelled b') : b'.written = b.written := by
  have hplain : ∀ members : List Member,
      members.flatMap Member.written = (members.map Member.plain).flatMap Member.written := by
    intro members
    rw [List.flatMap_map]
    exact List.flatMap_congr fun m _ => m.written_plain.symm
  rw [written, written, sign, sign, h.1, hplain b'.members, h.2, ← hplain b.members]

end Bracket

end UriRouting.Template
