/-
Readings of a path along a template: the ways to cut its front into the literals of the template and a value for each
placeholder. A template counts as simple when its literals are plain text and every constraint is one class of characters
behind which stands a star or a plus sign.

`Writes` says that literals and values, in order, are a path. `readings` lists all the ways to read the front of a text,
the longer value of an earlier placeholder first.

Results:
- `mem_readings`: the list holds exactly the decompositions of the fronts of the text.
- `readings_descending`: it descends strictly in the lengths of the values, the first value counting most.
-/
import Mathlib.Tactic
import UriRouting.Config
import UriRouting.Template.Token
import UriRouting.Proofs.Regex.Reading
import UriRouting.Proofs.Template.Expand

namespace UriRouting.Template

open Regex (CharTest)

/-! ## Slots -/

/-- what a value may be: so many characters at least, all of one class -/
structure Slot where
  least : ℕ
  test : CharTest
deriving DecidableEq, Repr

/-- the value lies in the language of the slot -/
def Slot.Admits (s : Slot) (v : Text) : Prop := s.least ≤ v.length ∧ ∀ c ∈ v, s.test.accepts false c = true

/-- the slot of a bare placeholder: text that is not empty and has no slash -/
def Slot.bare : Slot := ⟨1, .set [.range 0x2F 0x2F] true false⟩

/-- the class of characters that a constraint means: the dot, the digits, or one set written in brackets -/
def class? (constraint : Text) : Option CharTest :=
  match expand constraint with
  | .ok ['.'] => some (.any false)
  | .ok ['\\', 'd'] => some (.property .decimalDigit false false)
  | .ok ('[' :: rest) =>
    match Regex.set false rest with
    | .ok (test, []) => some test
    | _ => none
  | _ => none

/-- the slot of a placeholder that is bare, or whose constraint is one class behind which stands a star or a plus sign -/
def slot? : Option Text → Option Slot
  | none => some .bare
  | some constraint =>
    match constraint.getLast? with
    | some '*' => (class? constraint.dropLast).map (Slot.mk 0)
    | some '+' => (class? constraint.dropLast).map (Slot.mk 1)
    | _ => none

/-- plain text, or a placeholder with a slot -/
def Token.IsSimple : Token → Prop
  | .literal t => Regex.IsLiteral t
  | .parameter _ constraint => (slot? constraint).isSome = true

instance (t : Token) : Decidable t.IsSimple :=
  match t with
  | .literal t => inferInstanceAs (Decidable (Regex.IsLiteral t))
  | .parameter _ constraint => inferInstanceAs (Decidable ((slot? constraint).isSome = true))

theorem Slot.bare_admits {v : Text} : Slot.bare.Admits v ↔ v ≠ [] ∧ '/' ∉ v := by
  have haccepts : ∀ c : Char, CharTest.accepts false (.set [.range 0x2F 0x2F] true false) c = true ↔ c ≠ '/' := by
    intro c
    have hval : c.toNat = 0x2F ↔ c = '/' := ⟨fun h => Char.toNat_inj.1 h, fun h => h ▸ rfl⟩
    rw [ne_eq, ← hval]
    simp only [CharTest.accepts, Regex.variants, Regex.SetItem.holds, Bool.false_eq_true, if_false, List.any_cons,
      List.any_nil, Bool.or_false, bne_iff_ne, ne_eq, Bool.and_eq_true, decide_eq_true_eq]
    omega
  simp only [Slot.Admits, Slot.bare, haccepts]
  exact and_congr List.length_pos_iff ⟨fun h hm => h _ hm rfl, fun h c hc he => h (he ▸ hc)⟩

/-! ## Decompositions -/

/-- the literals and the values, in order, are the path, and every value lies in the language of its placeholder -/
inductive Writes : List Token → List Text → Text → Prop
  | nil : Writes [] [] []
  | literal (t : Text) {tokens : List Token} {values : List Text} {path : Text} (h : Writes tokens values path) :
    Writes (.literal t :: tokens) values (t ++ path)
  | parameter (name : Text) {constraint : Option Text} {s : Slot} {v : Text} {tokens : List Token} {values : List Text}
    {path : Text} (hs : slot? constraint = some s) (hv : s.Admits v) (h : Writes tokens values path) :
    Writes (.parameter name constraint :: tokens) (v :: values) (v ++ path)

theorem Writes.length_eq {tokens : List Token} {values : List Text} {path : Text} (h : Writes tokens values path) :
    values.length = (names tokens).length := by
  induction h with
  | nil => rfl
  | literal t _ ih => exact ih
  | parameter name _ _ _ ih => exact congrArg Nat.succ ih

/-- the takes behind a character, the character put before their values -/
def past (test : Char → Bool) (c : Char) (more : List (Text × Text)) : List (Text × Text) :=
  if test c then more.map (Prod.map (c :: ·) id) else []

/-- the ways to take a value off the front of a text, with what they leave, the longest value first -/
def takes (test : Char → Bool) : ℕ → Text → List (Text × Text)
  | 0, [] => [([], [])]
  | 0, c :: rest => past test c (takes test 0 rest) ++ [([], c :: rest)]
  | _ + 1, [] => []
  | least + 1, c :: rest => past test c (takes test least rest)

/-- the ways to read the front of a text along the tokens, with what they leave -/
def readings : List Token → Text → List (List Text × Text)
  | [], t => [([], t)]
  | .literal l :: tokens, t => if l.isPrefixOf t then readings tokens (t.drop l.length) else []
  | .parameter _ constraint :: tokens, t =>
    match slot? constraint with
    | none => []
    | some s => (takes (s.test.accepts false) s.least t).flatMap fun (v, rest) =>
      (readings tokens rest).map (Prod.map (v :: ·) id)

theorem mem_past {test : Char → Bool} {c : Char} {more : List (Text × Text)} {v rest : Text} :
    (v, rest) ∈ past test c more ↔ ∃ w, v = c :: w ∧ test c = true ∧ (w, rest) ∈ more := by
  unfold past
  split
  · rename_i hc
    refine ⟨?_, ?_⟩
    · intro h
      obtain ⟨⟨w, r⟩, hm, he⟩ := List.mem_map.1 h
      obtain ⟨rfl, rfl⟩ := Prod.mk.inj he
      exact ⟨w, rfl, hc, hm⟩
    · intro hmem
      obtain ⟨w, rfl, -, hm⟩ := hmem
      exact List.mem_map.2 ⟨(w, rest), hm, rfl⟩
  · rename_i hc
    simp [hc]

theorem mem_takes {test : Char → Bool} {least : ℕ} {t v rest : Text} :
    (v, rest) ∈ takes test least t ↔ t = v ++ rest ∧ least ≤ v.length ∧ ∀ c ∈ v, test c = true := by
  induction t generalizing least v with
  | nil =>
    cases least with
    | zero =>
      rw [takes, List.mem_singleton, Prod.mk.injEq]
      refine ⟨?_, ?_⟩
      · intro hmem
        obtain ⟨rfl, rfl⟩ := hmem
        exact ⟨rfl, le_rfl, by simp⟩
      · intro hmem
        obtain ⟨h, -⟩ := hmem
        exact List.append_eq_nil_iff.1 h.symm
    | succ least =>
      unfold takes
      refine ⟨?_, ?_⟩
      · simp
      · intro hmem
        obtain ⟨h, hl, -⟩ := hmem
        rw [(List.append_eq_nil_iff.1 h.symm).1] at hl
        simp at hl
  | cons c more ih =>
    cases least with
    | succ least =>
      rw [takes, mem_past]
      refine ⟨?_, ?_⟩
      · intro hmem
        obtain ⟨w, rfl, hc, hm⟩ := hmem
        obtain ⟨rfl, hl, hw⟩ := ih.1 hm
        exact ⟨rfl, Nat.succ_le_succ hl, List.forall_mem_cons.2 ⟨hc, hw⟩⟩
      · intro hmem
        obtain ⟨h, hl, hv⟩ := hmem
        cases v with
        | nil => simp at hl
        | cons d w =>
          obtain ⟨rfl, rfl⟩ := List.cons.inj h
          obtain ⟨hc, hw⟩ := List.forall_mem_cons.1 hv
          exact ⟨w, rfl, hc, ih.2 ⟨rfl, Nat.le_of_succ_le_succ hl, hw⟩⟩
    | zero =>
      rw [takes, List.mem_append, mem_past, List.mem_singleton, Prod.mk.injEq]
      refine ⟨?_, ?_⟩
      · intro hmem
        rcases hmem with ⟨w, rfl, hc, hm⟩ | ⟨rfl, rfl⟩
        · obtain ⟨rfl, -, hw⟩ := ih.1 hm
          exact ⟨rfl, Nat.zero_le _, List.forall_mem_cons.2 ⟨hc, hw⟩⟩
        · exact ⟨rfl, le_rfl, by simp⟩
      · intro hmem
        obtain ⟨h, -, hv⟩ := hmem
        cases v with
        | nil => exact .inr ⟨rfl, h.symm⟩
        | cons d w =>
          obtain ⟨rfl, rfl⟩ := List.cons.inj h
          obtain ⟨hc, hw⟩ := List.forall_mem_cons.1 hv
          exact .inl ⟨w, rfl, hc, ih.2 ⟨rfl, Nat.zero_le _, hw⟩⟩

theorem past_descending {test : Char → Bool} {c : Char} {more : List (Text × Text)}
    (h : more.Pairwise fun a b => b.1.length < a.1.length) :
    (past test c more).Pairwise fun a b => b.1.length < a.1.length := by
  unfold past
  split
  · exact List.pairwise_map.2 (h.imp fun hab => Nat.succ_lt_succ hab)
  · exact .nil

theorem takes_descending (test : Char → Bool) (least : ℕ) (t : Text) :
    (takes test least t).Pairwise fun a b => b.1.length < a.1.length := by
  induction t generalizing least with
  | nil =>
    cases least with
    | zero => exact List.pairwise_singleton _ _
    | succ least => exact .nil
  | cons c more ih =>
    cases least with
    | succ least => exact past_descending (ih least)
    | zero =>
      rw [takes, List.pairwise_append]
      refine ⟨past_descending (ih 0), List.pairwise_singleton _ _, ?_⟩
      intro a ha b hb
      obtain ⟨w, hw, -⟩ := mem_past.1 ha
      rw [List.mem_singleton.1 hb, hw]
      exact Nat.succ_pos _

/-- **The readings are the decompositions of the fronts of the text** -/
theorem mem_readings {tokens : List Token} {t rest : Text} {values : List Text} :
    (values, rest) ∈ readings tokens t ↔ ∃ path, Writes tokens values path ∧ t = path ++ rest := by
  induction tokens generalizing t values with
  | nil =>
    simp only [readings, List.mem_singleton, Prod.mk.injEq]
    refine ⟨?_, ?_⟩
    · intro hmem
      obtain ⟨rfl, rfl⟩ := hmem
      exact ⟨[], .nil, rfl⟩
    · intro hmem
      obtain ⟨path, h, rfl⟩ := hmem
      cases h
      exact ⟨rfl, rfl⟩
  | cons token tokens ih =>
    cases token with
    | literal l =>
      unfold readings
      refine ⟨?_, ?_⟩
      · intro h
        split at h
        · rename_i hl
          obtain ⟨more, rfl⟩ := List.isPrefixOf_iff_prefix.1 hl
          obtain ⟨path, hw, he⟩ := ih.1 h
          rw [List.drop_left] at he
          exact ⟨l ++ path, .literal l hw, by rw [he, List.append_assoc]⟩
        · simp at h
      · intro hmem
        obtain ⟨path, hw, rfl⟩ := hmem
        obtain _ | @⟨_, _, _, path, hw⟩ := hw
        rw [List.append_assoc, if_pos (List.isPrefixOf_iff_prefix.2 (List.prefix_append ..)), List.drop_left]
        exact ih.2 ⟨path, hw, rfl⟩
    | parameter name constraint =>
      unfold readings
      refine ⟨?_, ?_⟩
      · intro h
        split at h
        · simp at h
        · rename_i s hs
          obtain ⟨⟨v, more⟩, hv, h⟩ := List.mem_flatMap.1 h
          obtain ⟨⟨vs, r⟩, hr, he⟩ := List.mem_map.1 h
          obtain ⟨rfl, rfl⟩ := Prod.mk.inj he
          obtain ⟨rfl, hadmits⟩ := mem_takes.1 hv
          obtain ⟨path, hw, rfl⟩ := ih.1 hr
          exact ⟨v ++ path, .parameter name hs hadmits hw, by rw [List.append_assoc]⟩
      · intro hmem
        obtain ⟨path, hw, rfl⟩ := hmem
        obtain _ | _ | @⟨_, _, s, v, _, values, path, hs, hv, hw⟩ := hw
        simp only [hs]
        refine List.mem_flatMap.2 ⟨(v, path ++ rest), mem_takes.2 ⟨by rw [List.append_assoc], hv⟩, ?_⟩
        exact List.mem_map.2 ⟨(values, rest), ih.2 ⟨path, hw, rfl⟩, rfl⟩

/-- **Earlier readings have the longer values**, the first place where the lengths differ deciding -/
theorem readings_descending (tokens : List Token) (t : Text) :
    (readings tokens t).Pairwise fun a b => b.1.map List.length < a.1.map List.length := by
  induction tokens generalizing t with
  | nil => exact List.pairwise_singleton _ _
  | cons token tokens ih =>
    cases token with
    | literal l =>
      unfold readings
      split
      · exact ih _
      · exact .nil
    | parameter name constraint =>
      unfold readings
      split
      · exact .nil
      · rename_i s hs
        refine List.pairwise_flatMap.2 ⟨?_, (takes_descending _ _ _).imp ?_⟩
        · rintro ⟨v, rest⟩ -
          refine List.pairwise_map.2 ((ih rest).imp fun h => ?_)
          exact List.cons_lt_cons_iff.2 (.inr ⟨rfl, h⟩)
        · intro a b hab x hx y hy
          obtain ⟨x, -, rfl⟩ := List.mem_map.1 hx
          obtain ⟨y, -, rfl⟩ := List.mem_map.1 hy
          exact List.cons_lt_cons_iff.2 (.inl hab)

end UriRouting.Template
