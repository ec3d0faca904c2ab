/-
Braces of a template, counted. With the escape pairs left out (`unescaped`), the braces of a text balance when no front of it
has more closing ones than opening ones and the whole has as many of both (`BracesBalance`). A scan finds the first opening
brace that nothing closes (`LeftOpen`). A closing brace that closes nothing is a piece like any other character, and part of
a literal.

- `closes_of_tokenize`: a template that has tokens closes its braces, and balances them where each literal does.
- `tokenize_of_not_closes`: a template that leaves a brace open has no tokens.
- `leftOpen_of_unbalanced`: an unbalanced brace is told only where one is left open.
-/
import UriRouting.Proofs.Template.Parts

namespace UriRouting.Template

/-! ## Words of braces -/

/-- no front of the word has more closing braces than opening ones, and the word has as many of both -/
structure IsEven (w : Text) : Prop where
  opened : ∀ s, s <+: w → s.count '}' ≤ s.count '{'
  settled : w.count '}' = w.count '{'

instance (w : Text) : Decidable (IsEven w) :=
  decidable_of_iff ((∀ s ∈ w.inits, s.count '}' ≤ s.count '{') ∧ w.count '}' = w.count '{') <| by
    simp only [List.mem_inits]
    exact ⟨fun h => ⟨h.1, h.2⟩, fun h => ⟨h.opened, h.settled⟩⟩

/-- no back of the word has more opening braces than closing ones: what is opened is closed -/
def Closes (w : Text) : Prop := ∀ s, s <:+ w → s.count '{' ≤ s.count '}'

instance (w : Text) : Decidable (Closes w) :=
  decidable_of_iff (∀ s ∈ w.tails, s.count '{' ≤ s.count '}') (by simp only [List.mem_tails, Closes])

/-- **An even word in front does not matter** -/
theorem isEven_append_iff {v w : Text} (hv : IsEven v) : IsEven (v ++ w) ↔ IsEven w := by
  have hcount := hv.settled
  constructor
  · intro h
    have hsettled := h.settled
    rw [List.count_append, List.count_append] at hsettled
    refine ⟨fun s hs => ?_, by omega⟩
    have hopened := h.opened (v ++ s) ((List.prefix_append_right_inj v).2 hs)
    rw [List.count_append, List.count_append] at hopened
    omega
  · intro h
    have hsettled := h.settled
    refine ⟨?_, by rw [List.count_append, List.count_append]; omega⟩
    rintro s ⟨back, hs⟩
    rcases List.append_eq_append_iff.1 hs with ⟨u, rfl, -⟩ | ⟨u, rfl, rfl⟩
    · exact hv.opened s (List.prefix_append s u)
    · have hopened := h.opened u (List.prefix_append u back)
      rw [List.count_append, List.count_append]
      omega

theorem isEven_nil : IsEven [] where
  opened := by
    intro s hs
    exact (List.prefix_nil.1 hs).symm ▸ le_rfl
  settled := rfl

theorem isEven_singleton {c : Char} (hopen : c ≠ '{') (hclose : c ≠ '}') : IsEven [c] where
  opened := by
    intro s hs
    rw [List.count_eq_zero.2 fun hmem => hclose (List.mem_singleton.1 (hs.subset hmem)).symm]
    exact Nat.zero_le _
  settled := by simp [hopen, hclose]

/-- an even word between braces is even -/
theorem isEven_braces {w : Text} (hw : IsEven w) : IsEven ('{' :: (w ++ ['}'])) := by
  have hcount := hw.settled
  refine ⟨?_, by simp [List.count_append]; omega⟩
  rintro s ⟨back, hs⟩
  cases s with
  | nil => exact le_rfl
  | cons c s =>
    obtain ⟨rfl, hrest⟩ := List.cons.inj hs
    rcases List.append_eq_append_iff.1 hrest with ⟨u, rfl, -⟩ | ⟨u, rfl, hlast⟩
    · have hopened := hw.opened s (List.prefix_append s u)
      simp
      omega
    · have hle : u.count '}' ≤ 1 := by
        have hsub := (List.prefix_append u back).sublist.count_le '}'
        rwa [← hlast] at hsub
      simp [List.count_append]
      omega

/-- no word is even that begins with a closing brace -/
theorem not_isEven_close (w : Text) : ¬IsEven ('}' :: w) := by
  intro h
  have hopened := h.opened ['}'] (List.cons_prefix_cons.2 ⟨rfl, List.nil_prefix⟩)
  simp at hopened

theorem IsEven.closes {w : Text} (h : IsEven w) : Closes w := by
  rintro s ⟨front, rfl⟩
  have hopened := h.opened front (List.prefix_append front s)
  have hsettled := h.settled
  rw [List.count_append, List.count_append] at hsettled
  omega

theorem closes_append {v w : Text} (hv : Closes v) (hw : Closes w) : Closes (v ++ w) := by
  rintro s ⟨front, hs⟩
  rcases List.append_eq_append_iff.1 hs with ⟨u, rfl, rfl⟩ | ⟨u, -, rfl⟩
  · have hback := hw w List.suffix_rfl
    have hfront := hv u (List.suffix_append front u)
    rw [List.count_append, List.count_append]
    omega
  · exact hw s (List.suffix_append u s)

theorem closes_singleton {c : Char} (hc : c ≠ '{') : Closes [c] := by
  intro s hs
  rw [List.count_eq_zero.2 fun hmem => hc (List.mem_singleton.1 (hs.subset hmem)).symm]
  exact Nat.zero_le _

/-! ## Escape pairs left out -/

/-- the text without its escape pairs -/
def unescaped : Text → Text
  | [] => []
  | ['\\'] => ['\\']
  | '\\' :: _ :: t => unescaped t
  | c :: t => c :: unescaped t

theorem unescaped_cons {c : Char} (hc : c ≠ '\\') (t : Text) : unescaped (c :: t) = c :: unescaped t := by
  rw [unescaped]
  · exact fun h _ => hc h
  · exact fun _ _ h _ => hc h

theorem unescaped_append {s : Text} (hs : dangles s = false) (t : Text) :
    unescaped (s ++ t) = unescaped s ++ unescaped t := by
  fun_induction dangles s with
  | case1 => rfl
  | case2 => cases hs
  | case3 c s ih => exact ih hs
  | case4 c s hlone hescape ih =>
    have hc := ne_backslash hlone hescape
    rw [List.cons_append, unescaped_cons hc, unescaped_cons hc, ih hs, List.cons_append]

/-- the braces of the text balance, escape pairs left out -/
def BracesBalance (t : Text) : Prop := IsEven (unescaped t)

instance (t : Text) : Decidable (BracesBalance t) := inferInstanceAs (Decidable (IsEven _))

/-- every opening brace of the text is closed, escape pairs left out -/
def ClosesBraces (t : Text) : Prop := Closes (unescaped t)

instance (t : Text) : Decidable (ClosesBraces t) := inferInstanceAs (Decidable (Closes _))

/-- a brace group, and the text behind it -/
theorem unescaped_braces {inner : Text} (h : Balances inner) (t : Text) :
    unescaped ('{' :: (inner ++ '}' :: t)) = '{' :: (unescaped inner ++ ['}']) ++ unescaped t := by
  rw [unescaped_cons (by decide), unescaped_append h.dangles_eq, unescaped_cons (by decide)]
  simp

theorem Balances.isEven {t : Text} (h : Balances t) : IsEven (unescaped t) := by
  induction h with
  | nil => exact isEven_nil
  | escape c _ ih => exact ih
  | plain hc _ ih =>
    simp only [List.mem_cons, List.not_mem_nil, or_false, not_or] at hc
    rw [unescaped_cons hc.1, ← List.singleton_append, isEven_append_iff (isEven_singleton hc.2.1 hc.2.2)]
    exact ih
  | nested hinner _ ihinner ih =>
    rw [unescaped_braces hinner, isEven_append_iff (isEven_braces ihinner)]
    exact ih

/-! ## The scan -/

variable {t : Text} {pieces : List Segment}

/-- a scan that meets no brace left open closes what it opens -/
theorem Scans.closes (h : Scans t pieces) (hclosed : ∀ rest, .unclosed rest ∉ pieces) : ClosesBraces t := by
  induction h with
  | nil => exact isEven_nil.closes
  | lone => exact closes_singleton (by decide)
  | escape c _ ih => exact ih fun rest hmem => hclosed rest (List.mem_cons_of_mem _ hmem)
  | @plain c t more hc _ ih =>
    have hrest := ih fun rest hmem => hclosed rest (List.mem_cons_of_mem _ hmem)
    simp only [List.mem_cons, List.not_mem_nil, or_false, not_or] at hc
    rw [ClosesBraces, unescaped_cons hc.1]
    exact closes_append (closes_singleton hc.2) hrest
  | braces hinner _ ih =>
    have hrest := ih fun rest hmem => hclosed rest (List.mem_cons_of_mem _ hmem)
    rw [ClosesBraces, unescaped_braces hinner]
    exact closes_append (isEven_braces hinner.isEven).closes hrest
  | unclosed => exact absurd List.mem_cons_self (hclosed _)

/-- **What keeps the braces of a scanned text from balancing** is a closing brace on its own -/
theorem Scans.bracesBalance_iff (h : Scans t pieces) (hclosed : ∀ rest, .unclosed rest ∉ pieces) :
    BracesBalance t ↔ .plain '}' ∉ pieces := by
  induction h with
  | nil => exact ⟨fun _ => List.not_mem_nil, fun _ => isEven_nil⟩
  | lone => exact ⟨fun _ => by decide, fun _ => isEven_singleton (by decide) (by decide)⟩
  | escape c _ ih =>
    rw [List.mem_cons, or_iff_right (by simp), ← ih fun rest hmem => hclosed rest (List.mem_cons_of_mem _ hmem)]
    rfl
  | @plain c t more hc _ ih =>
    have hrest := ih fun rest hmem => hclosed rest (List.mem_cons_of_mem _ hmem)
    simp only [List.mem_cons, List.not_mem_nil, or_false, not_or] at hc
    rw [BracesBalance, unescaped_cons hc.1]
    by_cases hclose : c = '}'
    · subst hclose
      exact ⟨fun h => absurd h (not_isEven_close _), fun h => absurd List.mem_cons_self h⟩
    · have hne : Segment.plain '}' ≠ .plain c := fun h => hclose (Segment.plain.inj h).symm
      rw [List.mem_cons, or_iff_right hne, ← hrest, ← List.singleton_append,
        isEven_append_iff (isEven_singleton hc.2 hclose)]
      rfl
  | braces hinner _ ih =>
    have hrest := ih fun rest hmem => hclosed rest (List.mem_cons_of_mem _ hmem)
    rw [List.mem_cons, or_iff_right (by simp), ← hrest, BracesBalance, unescaped_braces hinner,
      isEven_append_iff (isEven_braces hinner.isEven)]
    rfl
  | unclosed => exact absurd List.mem_cons_self (hclosed _)

/-- where no brace closes the one in front, the text opens as many as it closes, and those in front besides -/
theorem count_of_innerLength {depth : ℕ} {t : Text} (h : innerLength depth t = none) :
    (unescaped t).count '}' ≤ (unescaped t).count '{' + depth := by
  fun_induction innerLength depth t with
  | case1 => exact Nat.zero_le _
  | case2 => exact Nat.zero_le _
  | case3 depth c rest ih => exact ih (Option.map_eq_none_iff.1 h)
  | case4 depth rest ih =>
    have hrest := ih (Option.map_eq_none_iff.1 h)
    rw [unescaped_cons (by decide), List.count_cons_self, List.count_cons_of_ne (by decide)]
    omega
  | case5 => cases h
  | case6 depth rest ih =>
    have hrest := ih (Option.map_eq_none_iff.1 h)
    rw [unescaped_cons (by decide), List.count_cons_self, List.count_cons_of_ne (by decide)]
    omega
  | case7 depth c rest hlone hescape hopen hclose hclose' ih =>
    have hrest := ih (Option.map_eq_none_iff.1 h)
    have hc : c ≠ '}' := by
      rintro rfl
      cases depth with
      | zero => exact hclose rfl rfl
      | succ depth => exact hclose' depth rfl rfl
    rw [unescaped_cons (ne_backslash hlone hescape), List.count_cons_of_ne hc, List.count_cons_of_ne hopen]
    exact hrest

/-! ## Braces left open -/

/-- the first opening brace that nothing closes: those in front of it are closed, and no text between it and a closing brace
balances -/
structure LeftOpen (t before rest : Text) : Prop where
  text_eq : t = before ++ '{' :: rest
  apart : dangles before = false
  closed : ClosesBraces before
  opened : ∀ inner behind, rest = inner ++ '}' :: behind → ¬Balances inner

theorem LeftOpen.not_closes {before rest : Text} (h : LeftOpen t before rest) : ¬ClosesBraces t := by
  obtain ⟨rfl, hapart, -, hopened⟩ := h
  intro hcloses
  have hcount := count_of_innerLength (innerLength_eq_none_iff.2 hopened)
  have hwhole := hcloses (unescaped ('{' :: rest)) (unescaped_append hapart _ ▸ List.suffix_append _ _)
  rw [unescaped_cons (by decide), List.count_cons_self, List.count_cons_of_ne (by decide)] at hwhole
  omega

/-- **A scan stops at the first brace left open** -/
theorem Scans.leftOpen {front back : List Segment} {rest : Text} (h : Scans t (front ++ .unclosed rest :: back)) :
    LeftOpen t (front.flatMap Segment.text) rest := by
  induction front generalizing t with
  | nil =>
    cases h with
    | unclosed hnone => exact ⟨rfl, rfl, isEven_nil.closes, hnone⟩
  | cons piece front ih =>
    rw [List.cons_append] at h
    generalize hmore : front ++ .unclosed rest :: back = more at h
    cases h with
    | lone => simp at hmore
    | escape c h =>
      obtain ⟨rfl, hapart, hclosed, hopened⟩ := ih (hmore ▸ h)
      exact ⟨rfl, hapart, hclosed, hopened⟩
    | @plain c t more hc h =>
      obtain ⟨rfl, hapart, hclosed, hopened⟩ := ih (hmore ▸ h)
      have hescape : c ≠ '\\' := (ne_of_mem_of_not_mem (by decide) hc).symm
      have hopen : c ≠ '{' := (ne_of_mem_of_not_mem (by decide) hc).symm
      refine ⟨rfl, (dangles_cons hescape _).trans hapart, ?_, hopened⟩
      rw [ClosesBraces, List.flatMap_cons, Segment.text, List.singleton_append, unescaped_cons hescape]
      exact closes_append (closes_singleton hopen) hclosed
    | @braces inner t more hinner h =>
      obtain ⟨rfl, hapart, hclosed, hopened⟩ := ih (hmore ▸ h)
      have hgroup : (Segment.braces inner).text ++ front.flatMap Segment.text =
          '{' :: (inner ++ '}' :: front.flatMap Segment.text) := by
        simp [Segment.text]
      refine ⟨by rw [List.flatMap_cons, hgroup]; simp, ?_, ?_, hopened⟩
      · rw [List.flatMap_cons, hgroup, dangles_cons (by decide), dangles_append hinner.dangles_eq, dangles_cons (by decide)]
        exact hapart
      · rw [ClosesBraces, List.flatMap_cons, hgroup, unescaped_braces hinner]
        exact closes_append (isEven_braces hinner.isEven).closes hclosed
    | unclosed => simp at hmore

/-- a scan cut in two is the scans of two parts of the text -/
theorem Scans.exists_append {front back : List Segment} (h : Scans t (front ++ back)) :
    ∃ s u, t = s ++ u ∧ Scans s front ∧ Scans u back := by
  induction front generalizing t with
  | nil => exact ⟨[], t, rfl, .nil, h⟩
  | cons piece front ih =>
    rw [List.cons_append] at h
    generalize hmore : front ++ back = more at h
    cases h with
    | lone =>
      obtain ⟨rfl, rfl⟩ := List.append_eq_nil_iff.1 hmore
      exact ⟨_, [], rfl, .lone, .nil⟩
    | escape c h =>
      obtain ⟨s, u, rfl, hs, hu⟩ := ih (hmore ▸ h)
      exact ⟨_, u, rfl, .escape c hs, hu⟩
    | plain hc h =>
      obtain ⟨s, u, rfl, hs, hu⟩ := ih (hmore ▸ h)
      exact ⟨_, u, rfl, .plain hc hs, hu⟩
    | braces hinner h =>
      obtain ⟨s, u, rfl, hs, hu⟩ := ih (hmore ▸ h)
      exact ⟨_, u, by simp, .braces hinner hs, hu⟩
    | unclosed hnone =>
      obtain ⟨rfl, rfl⟩ := List.append_eq_nil_iff.1 hmore
      exact ⟨_, [], (List.append_nil _).symm, .unclosed hnone, .nil⟩

/-! ## The tokens -/

variable {tokens : List Token}

/-- a closing brace that stands on its own is one that keeps a literal from balancing -/
theorem plain_not_mem_iff {stretches : List (List Segment)} (h : List.Forall₂ Makes stretches tokens)
    (hscan : Scans t stretches.flatten) :
    .plain '}' ∉ stretches.flatten ↔ ∀ text, .literal text ∈ tokens → BracesBalance text := by
  induction h generalizing t with
  | nil => simp
  | @cons stretch token stretches tokens hmakes _ ih =>
    rw [List.flatten_cons] at hscan
    obtain ⟨s, u, rfl, hs, hu⟩ := hscan.exists_append
    rw [List.flatten_cons, List.mem_append, not_or, ih hu]
    cases hmakes with
    | literal hne hliteral =>
      rw [hs.text_eq, ← hs.bracesBalance_iff fun rest hmem => hliteral _ hmem]
      simp
    | parameter hquantifier hname => simp

/-- **Templates that have tokens close their braces**, and balance them just where each literal does -/
theorem closes_of_tokenize (h : tokenize t = .ok tokens) :
    ClosesBraces t ∧ (BracesBalance t ↔ ∀ text, .literal text ∈ tokens → BracesBalance text) := by
  obtain ⟨stretches, hflatten, hmakes, -⟩ := gather_ok_iff.1 h
  have hscan : Scans t stretches.flatten := scans_iff.2 hflatten.symm
  have hclosed := unclosed_not_mem hmakes
  exact ⟨hscan.closes hclosed, (hscan.bracesBalance_iff hclosed).trans (plain_not_mem_iff hmakes hscan)⟩

/-- **A template that leaves a brace open has no tokens.** It fails with the place of that brace, unless a brace group in front
of it has no name -/
theorem tokenize_of_not_closes (h : ¬ClosesBraces t) : ∃ before rest, LeftOpen t before rest ∧
    (tokenize t = .error (.unbalanced before.length) ∨
      ∃ inner, '{' :: (inner ++ ['}']) <:+: before ∧ tokenize t = .error (.unnamed inner)) := by
  have hscan := scans_segments t
  cases htokens : tokenize t with
  | ok tokens => exact absurd (closes_of_tokenize htokens).1 h
  | error f =>
    obtain ⟨front, piece, back, hpieces, hsound, hfault⟩ := gather_error_iff.1 htokens
    rw [hpieces] at hscan
    cases hfault with
    | unclosed rest => exact ⟨_, rest, hscan.leftOpen, .inl (by rw [Nat.zero_add])⟩
    | @unnamed inner hquantifier hname =>
      have hopen : ∃ rest, .unclosed rest ∈ back := by
        by_contra hnone
        refine h (hscan.closes fun rest hmem => ?_)
        rcases List.mem_append.1 hmem with hmem | hmem
        · exact hsound _ hmem 0 _ (.unclosed rest)
        · exact hnone ⟨rest, by simpa using hmem⟩
      obtain ⟨rest, hmem⟩ := hopen
      obtain ⟨between, after, rfl⟩ := List.append_of_mem hmem
      rw [← List.cons_append, ← List.append_assoc] at hscan
      refine ⟨_, rest, hscan.leftOpen, .inr ⟨inner, ?_, rfl⟩⟩
      rw [List.flatMap_append, List.flatMap_cons]
      exact ⟨front.flatMap Segment.text, between.flatMap Segment.text, List.append_assoc _ _ _⟩

/-- an unbalanced brace is told only where a brace is left open, and with its place -/
theorem leftOpen_of_unbalanced {n : ℕ} (h : tokenize t = .error (.unbalanced n)) :
    ∃ before rest, LeftOpen t before rest ∧ n = before.length := by
  obtain ⟨front, piece, back, hpieces, -, hfault⟩ := gather_error_iff.1 h
  cases hfault with
  | unclosed rest => exact ⟨_, rest, (hpieces ▸ scans_segments t).leftOpen, Nat.zero_add _⟩

end UriRouting.Template
