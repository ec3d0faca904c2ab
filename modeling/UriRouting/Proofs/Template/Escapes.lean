/-
Escape pairs. A scan from the left pairs a backslash with the character behind it and goes on behind both. The pairs of a text
are told by what stands in front of them: the scan comes to a pair where the text in front of it does not dangle.

Results:
- `isPair_append_iff`: the pairs of two texts, the first of which does not dangle, are those of the one and of the other.
- `isPair_iff_of_scans`: the pairs of a template are the escape pieces of its scan, and the pairs between its braces.
-/
import UriRouting.Proofs.Template.Dangling
import UriRouting.Proofs.Template.Segmentation

namespace UriRouting.Template

/-- between the two other texts, a backslash of the text and the character that a scan from the left pairs with it -/
structure IsPair (t before : Text) (c : Char) (after : Text) : Prop where
  whole : t = before ++ '\\' :: c :: after
  aligned : dangles before = false

theorem Balances.dangles_eq {t : Text} (h : Balances t) : dangles t = false := by
  induction h with
  | nil => rfl
  | escape c _ ih => exact ih
  | plain hc _ ih => rwa [dangles_cons (ne_of_mem_of_not_mem (by decide) hc).symm]
  | nested _ _ ihinner ih => rwa [dangles_cons (by decide), dangles_append ihinner, dangles_cons (by decide)]

/-! ## Pairs -/

variable {s t before after : Text} {c : Char}

theorem IsPair.length_eq (h : IsPair t before c after) : t.length = before.length + (after.length + 2) := by
  rw [h.whole, List.length_append, List.length_cons, List.length_cons]

/-- a character of two texts together is one of the first or of the second -/
theorem append_cons_cases {rest : Text} (h : s ++ t = before ++ c :: rest) :
    (∃ r, s = before ++ c :: r) ∨ ∃ b, before = s ++ b ∧ t = b ++ c :: rest := by
  rcases List.append_eq_append_iff.1 h with hback | ⟨more, rfl, htail⟩
  · exact .inr hback
  · cases more with
    | nil => exact .inr ⟨[], by simp, htail.symm⟩
    | cons d more => exact .inl ⟨more, by rw [(List.cons.inj htail).1]⟩

/-- a pair of two texts together lies in the first one, or the first one ends in the middle of it, or in the second one -/
theorem IsPair.cases_append (h : IsPair (s ++ t) before c after) : (∃ a, IsPair s before c a ∧ after = a ++ t) ∨
    (s = before ++ ['\\'] ∧ t = c :: after) ∨ ∃ b, before = s ++ b ∧ t = b ++ '\\' :: c :: after := by
  obtain ⟨hwhole, haligned⟩ := h
  rcases append_cons_cases hwhole with ⟨rest, rfl⟩ | hback
  · rw [List.append_assoc, List.append_cancel_left_eq, List.cons_append, List.cons.injEq] at hwhole
    cases rest with
    | nil => exact .inr (.inl ⟨rfl, hwhole.2⟩)
    | cons d rest =>
      obtain ⟨rfl, rfl⟩ := List.cons.inj hwhole.2
      exact .inl ⟨rest, ⟨rfl, haligned⟩, rfl⟩
  · exact .inr (.inr hback)

/-- **A pair of two texts together lies in the first or in the second one**, if the first one does not dangle -/
theorem isPair_append_iff (hs : dangles s = false) : IsPair (s ++ t) before c after ↔
    (∃ a, IsPair s before c a ∧ after = a ++ t) ∨ ∃ b, IsPair t b c after ∧ before = s ++ b := by
  constructor
  · intro h
    rcases h.cases_append with hfirst | ⟨htorn, -⟩ | ⟨b, rfl, htail⟩
    · exact .inl hfirst
    · rw [htorn, dangles_append_backslash h.aligned] at hs
      cases hs
    · exact .inr ⟨b, ⟨htail, (dangles_append hs b).symm.trans h.aligned⟩, rfl⟩
  · rintro (⟨a, ⟨rfl, haligned⟩, rfl⟩ | ⟨b, ⟨rfl, haligned⟩, rfl⟩)
    · exact ⟨by simp, haligned⟩
    · exact ⟨by simp, (dangles_append hs b).trans haligned⟩

theorem isPair_escape_iff {d : Char} : IsPair ['\\', d] before c after ↔ before = [] ∧ c = d ∧ after = [] := by
  constructor
  · intro h
    have hlength : 2 = before.length + (after.length + 2) := h.length_eq
    obtain rfl : before = [] := List.length_eq_zero_iff.1 (by omega)
    have hwhole := h.whole
    simp only [List.nil_append, List.cons.injEq, true_and] at hwhole
    exact ⟨rfl, hwhole.1.symm, hwhole.2.symm⟩
  · rintro ⟨rfl, rfl, rfl⟩
    exact ⟨rfl, rfl⟩

theorem not_isPair_singleton {d : Char} : ¬IsPair [d] before c after := by
  intro h
  have hlength : 1 = before.length + (after.length + 2) := h.length_eq
  omega

theorem isPair_braces_iff {inner : Text} (hinner : dangles inner = false) : IsPair ('{' :: inner ++ ['}']) before c after ↔
    ∃ b a, IsPair inner b c a ∧ before = '{' :: b ∧ after = a ++ ['}'] := by
  have hopen : dangles ['{'] = false := rfl
  rw [← List.singleton_append, List.append_assoc, isPair_append_iff hopen]
  simp only [isPair_append_iff hinner, not_isPair_singleton, false_and, exists_false, false_or, or_false]
  constructor
  · rintro ⟨b, ⟨a, h, rfl⟩, rfl⟩
    exact ⟨b, a, h, rfl, rfl⟩
  · rintro ⟨b, a, h, rfl, rfl⟩
    exact ⟨b, ⟨a, h, rfl⟩, rfl⟩

/-! ## The scan of a template -/

/-- the pairs that a scan meets in its pieces: the escapes, and the pairs between braces -/
inductive Meets : List Segment → Text → Char → Text → Prop
  | escape (c : Char) (more : List Segment) : Meets (.escape c :: more) [] c (more.flatMap Segment.text)
  | braces {inner before : Text} {c : Char} {after : Text} (h : IsPair inner before c after) (more : List Segment) :
    Meets (.braces inner :: more) ('{' :: before) c (after ++ '}' :: more.flatMap Segment.text)
  | later (s : Segment) {more : List Segment} {before : Text} {c : Char} {after : Text} (h : Meets more before c after) :
    Meets (s :: more) (s.text ++ before) c after


theorem dangles_of_mem_dropLast {t : Text} {pieces : List Segment} (h : Scans t pieces) :
    ∀ s ∈ pieces.dropLast, dangles s.text = false := by
  have hcons : ∀ {s : Segment} {more : List Segment}, dangles s.text = false →
      (∀ s' ∈ more.dropLast, dangles s'.text = false) → ∀ s' ∈ (s :: more).dropLast, dangles s'.text = false := by
    intro s more hs hmore
    cases more with
    | nil => simp
    | cons next more => exact List.forall_mem_cons.2 ⟨hs, hmore⟩
  induction h with
  | nil | lone | unclosed => simp
  | escape c _ ih => exact hcons rfl ih
  | plain hc _ ih => exact hcons (dangles_cons (ne_of_mem_of_not_mem (by decide) hc).symm []) ih
  | @braces inner t more _ _ ih => exact hcons (dangles_append_of_ne (by decide) ('{' :: inner)) ih

/-- **Only the end of a template can dangle**: the pieces in front of another one do not -/
theorem dangles_of_scans {t : Text} {front back : List Segment} (h : Scans t (front ++ back)) (hback : back ≠ []) :
    dangles (front.flatMap Segment.text) = false := by
  have hfront : ∀ s ∈ front, dangles s.text = false := by
    intro s hs
    apply dangles_of_mem_dropLast h
    rw [List.dropLast_append_of_ne_nil hback]
    exact List.mem_append_left _ hs
  clear h
  induction front with
  | nil => rfl
  | cons s front ih =>
    obtain ⟨hs, hfront⟩ := List.forall_mem_cons.1 hfront
    rw [List.flatMap_cons, dangles_append hs, ih hfront]

theorem Scans.text_eq {pieces : List Segment} (h : Scans t pieces) : pieces.flatMap Segment.text = t := by
  rw [← scans_iff.1 h, segments_text]

theorem Scans.balances_of_mem {pieces : List Segment} (h : Scans t pieces) {inner : Text} (hmem : .braces inner ∈ pieces) :
    Balances inner := by
  induction h with
  | nil => cases hmem
  | lone | unclosed => simp at hmem
  | escape c _ ih => exact ih (by simpa using hmem)
  | plain hc _ ih => exact ih (by simpa using hmem)
  | @braces inner' t more hinner _ ih =>
    rcases List.mem_cons.1 hmem with heq | hmem
    · exact Segment.braces.inj heq ▸ hinner
    · exact ih hmem

/-- **The pairs of a template are those that its scan meets** -/
theorem isPair_iff_of_scans {pieces : List Segment} (h : Scans t pieces) (hclosed : ∀ rest, .unclosed rest ∉ pieces) :
    IsPair t before c after ↔ Meets pieces before c after := by
  induction h generalizing before with
  | nil =>
    refine ⟨fun hpair => absurd hpair.length_eq (by simp), fun hmeets => ?_⟩
    cases hmeets
  | lone =>
    refine ⟨fun hpair => absurd hpair not_isPair_singleton, fun hmeets => ?_⟩
    rcases hmeets with _ | _ | ⟨_, hmeets⟩
    cases hmeets
  | @escape d t more hscan ih =>
    have ih : ∀ b, IsPair t b c after ↔ Meets more b c after :=
      fun b => ih fun rest hmem => hclosed rest (List.mem_cons_of_mem _ hmem)
    have hpair : IsPair (['\\', d] ++ t) before c after ↔ _ := isPair_append_iff rfl
    simp only [isPair_escape_iff, ih] at hpair
    refine hpair.trans ⟨?_, fun hmeets => ?_⟩
    · rintro (⟨a, ⟨rfl, rfl, rfl⟩, rfl⟩ | ⟨b, hrest, rfl⟩)
      · exact hscan.text_eq ▸ .escape c more
      · exact .later (.escape d) hrest
    · cases hmeets with
      | escape => exact .inl ⟨[], ⟨rfl, rfl, rfl⟩, hscan.text_eq⟩
      | later _ hrest => exact .inr ⟨_, hrest, rfl⟩
  | @plain d t more hd hscan ih =>
    have ih : ∀ b, IsPair t b c after ↔ Meets more b c after :=
      fun b => ih fun rest hmem => hclosed rest (List.mem_cons_of_mem _ hmem)
    have hplain : dangles [d] = false := dangles_cons (ne_of_mem_of_not_mem (by decide) hd).symm []
    have hpair : IsPair ([d] ++ t) before c after ↔ _ := isPair_append_iff hplain
    simp only [not_isPair_singleton, ih, false_and, exists_false, false_or] at hpair
    refine hpair.trans ⟨?_, fun hmeets => ?_⟩
    · rintro ⟨b, hrest, rfl⟩
      exact .later (.plain d) hrest
    · obtain _ | _ | ⟨_, hrest⟩ := hmeets
      exact ⟨_, hrest, rfl⟩
  | @braces inner t more hinner hscan ih =>
    have ih : ∀ b, IsPair t b c after ↔ Meets more b c after :=
      fun b => ih fun rest hmem => hclosed rest (List.mem_cons_of_mem _ hmem)
    have hbraces : dangles ('{' :: inner ++ ['}']) = false := dangles_append_of_ne (by decide) ('{' :: inner)
    have hpair : IsPair ('{' :: inner ++ ['}'] ++ t) before c after ↔ _ := isPair_append_iff hbraces
    simp only [isPair_braces_iff hinner.dangles_eq, ih] at hpair
    have hwhole : '{' :: (inner ++ '}' :: t) = '{' :: inner ++ ['}'] ++ t := by simp
    rw [hwhole]
    refine hpair.trans ⟨?_, fun hmeets => ?_⟩
    · rintro (⟨_, ⟨b, a, hinside, rfl, rfl⟩, rfl⟩ | ⟨b, hrest, rfl⟩)
      · rw [List.append_assoc, List.singleton_append, ← hscan.text_eq]
        exact .braces hinside more
      · exact .later (.braces inner) hrest
    · cases hmeets with
      | @braces _ b _ a hinside _ =>
        exact .inl ⟨_, ⟨b, a, hinside, rfl, rfl⟩, by rw [hscan.text_eq, List.append_assoc, List.singleton_append]⟩
      | later _ hrest => exact .inr ⟨_, hrest, rfl⟩
  | @unclosed t hnone => exact absurd List.mem_cons_self (hclosed t)

end UriRouting.Template
