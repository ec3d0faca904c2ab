/-
Bare placeholders with their constraint written out. In each pair of braces that is read as a placeholder without a constraint
one is put behind the name (`constrain`), and all else is left as it is. The scan meets the same pieces in the template that
comes of it, those braces apart, so it is cut at the same places.

Results:
- `scans_writeOut`: what the scan meets.
- `tokenize_writeOut`: the tokens are those of the template, with the constraint in all bare placeholders.
- `exists_tokenize_writeOut`: the one template has tokens when the other has.
-/
import UriRouting.Proofs.Template.Joining
import UriRouting.Proofs.Template.Printing

namespace UriRouting.Template

/-- the text between braces is that of a placeholder without a constraint -/
def IsBare (inner : Text) : Prop :=
  ¬IsQuantifier inner ∧ (inner.cutAt ':').1.trim ≠ [] ∧ constraintOf (inner.cutAt ':').2 = none

instance : DecidablePred IsBare := fun inner => inferInstanceAs (Decidable (¬IsQuantifier inner ∧ _ ∧ _))

/-- a constraint put behind a name, or behind the colon that stands there already -/
def constrain (k inner : Text) : Text := if ':' ∈ inner then inner ++ k else inner ++ ':' :: ' ' :: k

def Segment.writeOut (k : Text) : Segment → Segment
  | braces inner => braces (if IsBare inner then constrain k inner else inner)
  | s => s

def Token.writeOut (k : Text) : Token → Token
  | parameter n none => parameter n (some k)
  | token => token

/-- the template, with the constraint written out in all bare placeholders -/
def writeOut (k t : Text) : Text := (segments t).flatMap fun s => (s.writeOut k).text

/-! ## Braces -/

theorem trim_append_of_blank {gap : Text} (hgap : ∀ c ∈ gap, isBlank c = true) (t : Text) : (gap ++ t).trim = t.trim := by
  rw [Text.trim, List.dropWhile_append_of_pos hgap, Text.trim]

variable {k inner : Text}

/-- the constraint stands behind the first colon, with nothing but blanks between -/
theorem IsBare.constrain_eq (h : IsBare inner) :
    ∃ gap, (∀ c ∈ gap, isBlank c = true) ∧ ':' ∉ (inner.cutAt ':').1 ∧
      constrain k inner = (inner.cutAt ':').1 ++ ':' :: (gap ++ k) := by
  rw [constrain]
  split
  · rename_i hcolon
    obtain ⟨name, gap, rfl, hname⟩ := List.eq_append_cons_of_mem hcolon
    have hcut := Text.cutAt_of_not_mem hname gap
    have hblank : Text.trim gap = [] := by
      have hnone := h.2.2
      rw [hcut, constraintOf] at hnone
      by_contra hne
      rw [if_neg hne] at hnone
      cases hnone
    exact ⟨gap, trim_eq_nil_iff.1 hblank, by rwa [hcut], by rw [hcut, List.append_assoc, List.cons_append]⟩
  · rename_i hcolon
    have hcut := cutAt_eq_self hcolon
    exact ⟨[' '], Text.forall_mem_of_all (by decide), by rwa [hcut], by rw [hcut]; rfl⟩

theorem Balances.constrain (h : Balances inner) (hk : Balances k) : Balances (constrain k inner) := by
  rw [Template.constrain]
  split
  · exact h.append hk
  · exact h.append (.plain (by decide) (.plain (by decide) hk))

/-- **With a constraint written out a bare placeholder has that constraint**, under the name it had -/
theorem IsBare.makes (h : IsBare inner) (hk : IsConstraintText k) :
    Makes [.braces (constrain k inner)] (.parameter (inner.cutAt ':').1.trim (some k)) := by
  obtain ⟨gap, hgap, hname, hconstrain⟩ := h.constrain_eq (k := k)
  have hcut := Text.cutAt_of_not_mem hname (gap ++ k)
  rw [← hconstrain] at hcut
  have hquantifier : ¬IsQuantifier (Template.constrain k inner) := by
    rw [hconstrain, ← isQuantifier_iff, isQuantifier_constrained]
    exact Bool.false_ne_true
  have hconstraint : constraintOf (some (gap ++ k)) = some k := by
    rw [constraintOf, trim_append_of_blank hgap, hk.trimmed, if_neg hk.nonempty]
  have hmakes := Makes.parameter hquantifier (by rw [hcut]; exact h.2.1)
  rwa [hcut, hconstraint] at hmakes

/-! ## The scan -/

theorem Segment.IsLiteral.writeOut_eq {s : Segment} (h : s.IsLiteral) (k : Text) : s.writeOut k = s := by
  cases s with
  | braces inner => rw [Segment.writeOut, if_neg fun hbare : IsBare inner => hbare.1 h]
  | _ => rfl

/-- **The scan meets the same pieces**, with the constraint in the braces of bare placeholders -/
theorem scans_writeOut (hk : Balances k) {t : Text} {pieces : List Segment} (h : Scans t pieces) :
    Scans (pieces.flatMap fun s => (s.writeOut k).text) (pieces.map (Segment.writeOut k)) := by
  induction h with
  | nil => exact .nil
  | lone => exact .lone
  | escape c _ ih => exact .escape c ih
  | plain hc _ ih => exact .plain hc ih
  | @braces inner t more hinner _ ih =>
    have hbraces : Balances (if IsBare inner then constrain k inner else inner) := by
      split
      · exact hinner.constrain hk
      · exact hinner
    have hscan := Scans.braces hbraces ih
    rw [List.flatMap_cons, List.map_cons]
    simpa only [Segment.writeOut, Segment.text, List.cons_append, List.append_assoc, List.nil_append] using hscan
  | @unclosed t h =>
    rw [List.flatMap_singleton]
    exact .unclosed h

theorem segments_writeOut (hk : Balances k) (t : Text) : segments (writeOut k t) = (segments t).map (Segment.writeOut k) :=
  scans_iff.1 (scans_writeOut hk (scans_segments t))

/-! ## Tokens -/

/-- what a stretch makes, with the constraint written out in it -/
theorem makes_writeOut (hk : IsConstraintText k) {stretch : List Segment} {token : Token} (h : Makes stretch token) :
    Makes (stretch.map (Segment.writeOut k)) (token.writeOut k) := by
  cases h with
  | literal hne hliteral =>
    have hmap : stretch.map (Segment.writeOut k) = stretch := by
      conv_rhs => rw [← List.map_id stretch]
      exact List.map_congr_left fun s hs => (hliteral s hs).writeOut_eq k
    rw [hmap]
    exact .literal hne hliteral
  | @parameter inner hquantifier hname =>
    rw [List.map_singleton, Segment.writeOut]
    cases hconstraint : constraintOf (inner.cutAt ':').2 with
    | none =>
      have hbare : IsBare inner := ⟨hquantifier, hname, hconstraint⟩
      rw [if_pos hbare]
      exact hbare.makes hk
    | some own =>
      have hbare : ¬IsBare inner := fun h => Option.some_ne_none own (hconstraint.symm.trans h.2.2)
      rw [if_neg hbare, Token.writeOut, ← hconstraint]
      · exact .parameter hquantifier hname
      · simp

theorem areApart_writeOut {tokens : List Token} (h : AreApart tokens) : AreApart (tokens.map (Token.writeOut k)) := by
  have hliteral : ∀ token : Token, (token.writeOut k).IsLiteral ↔ token.IsLiteral
    | .literal t => Iff.rfl
    | .parameter n none => Iff.rfl
    | .parameter n (some own) => Iff.rfl
  rw [AreApart, List.isChain_map]
  exact h.imp fun a b hab => by rwa [hliteral, hliteral]

/-- **The tokens have the constraint in all bare placeholders** -/
theorem tokenize_writeOut (hk : IsConstraintText k) {t : Text} {tokens : List Token} (h : tokenize t = .ok tokens) :
    tokenize (writeOut k t) = .ok (tokens.map (Token.writeOut k)) := by
  obtain ⟨stretches, hflatten, hmakes, hapart⟩ := gather_ok_iff.1 h
  rw [tokenize, segments_writeOut hk.balances, ← hflatten, List.map_flatten]
  refine gather_ok_iff.2 ⟨_, rfl, ?_, areApart_writeOut hapart⟩
  rw [List.forall₂_map_left_iff, List.forall₂_map_right_iff]
  exact hmakes.imp fun _ _ => makes_writeOut hk

theorem isSound_writeOut (k : Text) (s : Segment) : (s.writeOut k).IsSound ↔ s.IsSound := by
  cases s with
  | braces inner =>
    rw [Segment.writeOut]
    split
    · rename_i hbare
      obtain ⟨gap, -, hname, hconstrain⟩ := hbare.constrain_eq (k := k)
      have hcut : (constrain k inner).cutAt ':' = ((inner.cutAt ':').1, some (gap ++ k)) :=
        hconstrain ▸ Text.cutAt_of_not_mem hname (gap ++ k)
      exact iff_of_true (isSound_of_name (by rw [hcut]; exact hbare.2.1)) (isSound_of_name hbare.2.1)
    · rfl
  | _ => rfl

/-- a template has tokens when it has them with the constraint written out -/
theorem exists_tokenize_writeOut (hk : IsConstraintText k) (t : Text) :
    (∃ tokens, tokenize (writeOut k t) = .ok tokens) ↔ ∃ tokens, tokenize t = .ok tokens := by
  simp only [tokenize]
  rw [gather_isOk_iff, gather_isOk_iff, segments_writeOut hk.balances, List.forall_mem_map]
  exact forall₂_congr fun s _ => isSound_writeOut k s

end UriRouting.Template
