/-
Openers of groups in constraints. Outside brackets a constraint may open a group with `(?`, flags and a colon. A colon is also
where a shorthand begins: the two are told apart in the opener without flags, which is copied as a whole. Behind flags the colon
is read as any other, so that an opener with flags in front of the name of a class and a colon loses its colon to the shorthand.

- `endsOutside_iff`: where the scan of a text ends outside brackets, told by the text alone and by its expansion.
- `expandFrom_shift`: at a later position the expansion is the same, and so is the fault, moved on.
- `expand_opener`: what becomes of an opener, of what stands in front of it, and of what stands behind.
-/
import UriRouting.Proofs.Template.Dangling
import UriRouting.Proofs.Template.Settled

namespace UriRouting.Template

/-! ## Outside brackets -/

/-- the scan of the text ends outside brackets, and not in the middle of an escape pair; with `inside`, the text begins inside
brackets -/
inductive EndsOutside : (inside : Bool) → Text → Prop
  | nil : EndsOutside false []
  | escape {inside : Bool} (c : Char) {t : Text} (h : EndsOutside inside t) : EndsOutside inside ('\\' :: c :: t)
  | char {c : Char} {t : Text} (hc : c ∉ ['\\', '[']) (h : EndsOutside false t) : EndsOutside false (c :: t)
  | bracket {t : Text} (h : EndsOutside true (t.drop (opening t).1)) : EndsOutside false ('[' :: t)
  /-- a shorthand in brackets of its own opens nothing -/
  | bracketed (k : CharClass) {t : Text} (h : EndsOutside true t) : EndsOutside true (k.bracketed ++ t)
  | member {c : Char} {t : Text} (hc : c ∉ ['\\', '[', ']']) (h : EndsOutside true t) : EndsOutside true (c :: t)
  | close {t : Text} (h : EndsOutside false t) : EndsOutside true (']' :: t)

variable {inside : Bool} {c : Char} {t rest : Text}

theorem endsOutside_escape : EndsOutside inside ('\\' :: c :: t) ↔ EndsOutside inside t := by
  refine ⟨?_, .escape c⟩
  intro h
  cases h with
  | escape _ h => exact h
  | char hc _ => simp at hc
  | member hc _ => simp at hc

theorem not_endsOutside_lone : ¬EndsOutside inside ['\\'] := by
  intro h
  cases h with
  | char hc _ => simp at hc
  | member hc _ => simp at hc

theorem endsOutside_char (hc : c ∉ ['\\', '[']) : EndsOutside false (c :: t) ↔ EndsOutside false t := by
  refine ⟨?_, .char hc⟩
  intro h
  cases h with
  | escape d _ => simp at hc
  | char _ h => exact h
  | bracket _ => simp at hc

theorem endsOutside_bracket : EndsOutside false ('[' :: t) ↔ EndsOutside true (t.drop (opening t).1) := by
  refine ⟨?_, .bracket⟩
  intro h
  cases h with
  | char hc _ => simp at hc
  | bracket h => exact h

theorem endsOutside_close : EndsOutside true (']' :: t) ↔ EndsOutside false t := by
  refine ⟨?_, .close⟩
  intro h
  cases h with
  | member hc _ => simp at hc
  | close h => exact h

/-- an opening bracket inside another one is that of a shorthand -/
theorem exists_of_endsOutside_nested {s : Text} (h : EndsOutside true s) (hopen : s.head? = some '[') :
    ∃ (k : CharClass) (more : Text), s = k.bracketed ++ more ∧ EndsOutside true more := by
  cases h with
  | escape _ _ => simp at hopen
  | bracketed k h => exact ⟨k, _, rfl, h⟩
  | member hc _ =>
    obtain rfl := Option.some.inj hopen
    simp at hc
  | close _ => simp at hopen

theorem endsOutside_member (hc : c ∉ ['\\', '[', ']']) : EndsOutside true (c :: t) ↔ EndsOutside true t := by
  refine ⟨?_, .member hc⟩
  intro h
  generalize hs : c :: t = s at h
  cases h with
  | member _ h => exact (List.cons.inj hs).2 ▸ h
  | _ =>
    obtain ⟨rfl, -⟩ := List.cons.inj hs
    simp at hc

/-- no shorthand in brackets is the start of another one -/
theorem bracketed_append_inj {k k' : CharClass} {t t' : Text} (h : k.bracketed ++ t = k'.bracketed ++ t') : t = t' := by
  have hk : k = k' := by
    have hmember := memberAt?_shorthand k true t
    have hmember' := memberAt?_shorthand k' true t'
    rw [show (Member.shorthand k true).text ++ t = (Member.shorthand k' true).text ++ t' from h, hmember'] at hmember
    exact (Prod.mk.inj (Option.some.inj hmember)).1.symm
  rw [hk] at h
  exact List.append_cancel_left h

theorem endsOutside_bracketed (k : CharClass) : EndsOutside true (k.bracketed ++ t) ↔ EndsOutside true t := by
  refine ⟨?_, .bracketed k⟩
  intro h
  obtain ⟨k', more, heq, hmore⟩ := exists_of_endsOutside_nested h rfl
  rwa [bracketed_append_inj heq]

/-- characters of which none is a sign are passed over one by one, outside brackets and inside -/
theorem endsOutside_word {w : Text} (hw : ∀ d ∈ w, d ∉ ['\\', '[', ']']) :
    EndsOutside inside (w ++ t) ↔ EndsOutside inside t := by
  induction w with
  | nil => rfl
  | cons d w ih =>
    obtain ⟨hd, hw⟩ := List.forall_mem_cons.1 hw
    cases inside with
    | false =>
      have hd' : d ∉ ['\\', '['] := by
        simp only [List.mem_cons, List.not_mem_nil, or_false, not_or] at hd ⊢
        exact ⟨hd.1, hd.2.1⟩
      exact (endsOutside_char hd').trans (ih hw)
    | true => exact (endsOutside_member hd).trans (ih hw)

theorem endsOutside_split {w rest : Text} (hw : ∀ d ∈ w, d ∉ ['\\', '[', ']']) (h : t = w ++ rest) :
    EndsOutside inside t ↔ EndsOutside inside rest := by
  rw [h, endsOutside_word hw]

theorem spelling_no_bracket (k : CharClass) : ∀ d ∈ k.spelling, d ∉ ['\\', '[', ']'] := by
  cases k <;> exact Text.forall_mem_of_all (by decide)

/-- a shorthand inside brackets is passed over, in either spelling and with the dash behind it -/
theorem endsOutside_memberAt? {k : CharClass} {n : ℕ} (h : memberAt? (c :: rest) = some (k, n)) :
    EndsOutside true (c :: rest) ↔ EndsOutside true (rest.drop (memberEnd rest n)) := by
  obtain ⟨w, hw, hprefix, rfl⟩ := startsWith_of_memberAt? h
  have hlength : w ≠ [] ∧ ∀ t, EndsOutside true (w ++ t) ↔ EndsOutside true t := by
    simp only [List.mem_cons, List.not_mem_nil, or_false] at hw
    rcases hw with rfl | rfl
    · exact ⟨by cases k <;> decide, fun t => endsOutside_bracketed k⟩
    · exact ⟨by cases k <;> decide, fun t => endsOutside_word (spelling_no_bracket k)⟩
  rw [eq_append_of_starts hlength.1 hprefix, hlength.2]
  unfold memberEnd
  split
  · rename_i hdash
    obtain ⟨more, hmore⟩ := List.head?_eq_some_iff.1 hdash
    rw [← List.drop_drop, hmore, endsOutside_member (by decide)]
    rfl
  · rfl

theorem exists_emit_iff {t : Text} {r : Except BracketFault Text} : (∃ x, emit t r = .ok x) ↔ ∃ x, r = .ok x := by
  cases r <;> simp [emit, Except.map]

/-- **Where a text ends outside brackets** it is a constraint that expands and does not dangle, and conversely -/
theorem endsOutside_iff (place : Place) (position : ℕ) (t : Text) :
    EndsOutside place.isWithin t ↔ (∃ x, expandFrom place position t = .ok x) ∧ dangles t = false := by
  fun_induction expandFrom place position t with
  | case1 position => exact ⟨fun _ => ⟨⟨[], rfl⟩, rfl⟩, fun _ => .nil⟩
  | case2 position opened =>
    refine ⟨fun h => ?_, fun h => ?_⟩
    · cases h
    · simp at h
  | case3 place position rest ih =>
    rw [exists_emit_iff]
    cases rest with
    | nil => exact ⟨fun h => absurd h not_endsOutside_lone, fun h => Bool.noConfusion h.2⟩
    | cons d rest => exact endsOutside_escape.trans ih
  | case4 position c rest hc hopener ih =>
    obtain ⟨rfl, hrest⟩ := hopener
    have hsplit := opener_eq_append hrest
    rw [exists_emit_iff, dangles_of_split (by decide) hsplit, ← ih]
    exact endsOutside_split (Text.forall_mem_of_all (by decide)) hsplit
  | case5 position rest n written ho _ _ ih =>
    obtain ⟨w, hw, hsplit, -⟩ := opening_eq_append rest
    rw [ho] at hsplit
    have hstart : ∀ t, EndsOutside false ('[' :: t) ↔ EndsOutside true (t.drop (opening t).1) := fun t => endsOutside_bracket
    rw [exists_emit_iff, dangles_cons (by decide), dangles_of_split hw hsplit, ← ih]
    exact (hstart rest).trans (by rw [ho]; rfl)
  | case6 position c rest hc hopener hbracket k hk n =>
    rename_i ih
    have hsplit := shorthand_eq_append hk
    rw [exists_emit_iff, dangles_of_split (by cases k <;> decide) hsplit, ← ih]
    exact endsOutside_split (spelling_no_bracket k) hsplit
  | case7 position c rest hc hopener hbracket hk ih =>
    have hsign : c ∉ ['\\', '['] := by
      simp only [List.mem_cons, List.not_mem_nil, or_false, not_or]
      exact ⟨hc, hbracket⟩
    rw [exists_emit_iff, dangles_cons hc, ← ih]
    exact endsOutside_char hsign
  | case8 position rest opened _ ih =>
    rw [exists_emit_iff, dangles_cons (by decide), ← ih]
    exact endsOutside_close
  | case9 position c rest hc opened hclose k length hk n dash m =>
    rename_i ih
    obtain ⟨w, hw, hsplit⟩ := member_eq_append hk
    have hdangles : dangles (c :: rest) = dangles (rest.drop m) := dangles_of_split hw hsplit
    rw [exists_emit_iff, hdangles, ← ih]
    exact endsOutside_memberAt? hk
  | case10 position rest opened _ hclose hk =>
    refine ⟨fun h => ?_, fun h => ?_⟩
    · obtain ⟨k, more, heq, -⟩ := exists_of_endsOutside_nested h rfl
      rw [heq] at hk
      exact absurd ((memberAt?_shorthand k true more).symm.trans hk) (by simp)
    · simp at h
  | case11 position c rest hc opened hclose hk hopen written =>
    rename_i ih
    have hsign : c ∉ ['\\', '[', ']'] := by
      simp only [List.mem_cons, List.not_mem_nil, or_false, not_or]
      exact ⟨hc, hopen, hclose⟩
    rw [exists_emit_iff, dangles_cons hc, ← ih]
    exact endsOutside_member hsign

instance (t : Text) : Decidable (EndsOutside false t) :=
  decidable_of_iff ((expand t).isOk = true ∧ dangles t = false)
    ((and_congr_left' Results.isOk_iff).trans (endsOutside_iff .outside 0 t).symm)

/-! ## At a later position -/

def BracketFault.shift (n : ℕ) : BracketFault → BracketFault
  | .unclosed position => .unclosed (position + n)
  | .nested position => .nested (position + n)

def Place.shift (n : ℕ) : Place → Place
  | .outside => .outside
  | .within opened => .within (opened + n)

theorem Place.shift_outside (n : ℕ) : Place.shift n .outside = .outside := rfl

theorem Place.shift_within (n opened : ℕ) : Place.shift n (.within opened) = .within (opened + n) := rfl

/-- the result of a scan that begins so much later -/
def later (n : ℕ) (r : Except BracketFault Text) : Except BracketFault Text := r.mapError (BracketFault.shift n)

theorem later_emit (n : ℕ) (t : Text) (r : Except BracketFault Text) : later n (emit t r) = emit t (later n r) := by
  cases r <;> rfl

/-- **Expanding does not depend on where a text stands**: at a later position the expansion is the same, and so is the fault,
at its later position -/
theorem expandFrom_shift (n : ℕ) (place : Place) (position : ℕ) (t : Text) :
    expandFrom (place.shift n) (position + n) t = later n (expandFrom place position t) := by
  fun_induction expandFrom place position t with
  | case1 position =>
    rw [Place.shift_outside, expandFrom]
    rfl
  | case2 position opened =>
    rw [Place.shift_within, expandFrom]
    rfl
  | case3 place position rest ih =>
    rw [later_emit, ← ih, expandFrom_escape, Nat.add_right_comm]
  | case4 position c rest hc hopener ih =>
    obtain ⟨rfl, hrest⟩ := hopener
    rw [later_emit, ← ih, Place.shift_outside, expandFrom_opener hrest, Nat.add_right_comm]
  | case5 position rest taken written ho _ _ ih =>
    rw [later_emit, ← ih, Place.shift_outside, expandFrom_bracket, ho, Place.shift_within]
    simp only [Nat.add_right_comm _ n]
  | case6 position c rest hc hopener hbracket k hk taken =>
    rename_i ih
    rw [later_emit, ← ih, Place.shift_outside, expandFrom_shorthand ⟨hc, hopener, hbracket⟩ hk]
    simp only [Nat.add_right_comm _ n]
    rfl
  | case7 position c rest hc hopener hbracket hk ih =>
    rw [later_emit, ← ih, Place.shift_outside, expandFrom_char ⟨hc, hopener, hbracket⟩ hk, Nat.add_right_comm]
  | case8 position rest opened _ ih =>
    rw [later_emit, ← ih, Place.shift_within, Place.shift_outside, expandFrom_close, Nat.add_right_comm]
  | case9 position c rest hc opened hclose k length hk taken dash reach =>
    rename_i ih
    rw [later_emit, ← ih, Place.shift_within, expandFrom_member hc hclose hk]
    simp only [Nat.add_right_comm _ n]
    rfl
  | case10 position rest opened hc hclose hk =>
    rw [Place.shift_within, expandFrom]
    · simp only [if_neg hclose, hk]
      rfl
    · exact hc
  | case11 position c rest hc opened hclose hk hopen written =>
    rename_i ih
    rw [later_emit, ← ih, Place.shift_within, expandFrom_within hc hclose hopen hk, Nat.add_right_comm]
    rfl

/-- a text that stands outside brackets is expanded as it is at the start of a constraint -/
theorem expandFrom_outside (position : ℕ) (t : Text) :
    expandFrom .outside position t = later position (expand t) := by
  have hshift := expandFrom_shift position .outside 0 t
  rwa [Nat.zero_add] at hshift

/-! ## Openers -/

/-- a character that flags are written in -/
def IsFlag (c : Char) : Prop := c.isAlphanum = true ∨ c = '-'

instance (c : Char) : Decidable (IsFlag c) := inferInstanceAs (Decidable (_ ∨ _))

theorem IsFlag.not_mem {c : Char} (h : IsFlag c) : c ∉ ['\\', '(', '[', ':'] := by
  rcases h with h | rfl
  · exact not_mem_of_alphanum h (by decide)
  · decide

theorem expandFrom_ne {c : Char} (hc : c ∉ ['\\', '(', '[', ':']) (position : ℕ) (t : Text) :
    expandFrom .outside position (c :: t) = emit [c] (expandFrom .outside (position + 1) t) := by
  simp only [List.mem_cons, List.not_mem_nil, or_false, not_or] at hc
  obtain ⟨hescape, hparen, hbracket, hcolon⟩ := hc
  exact expandFrom_char ⟨hescape, fun h => hparen h.1, hbracket⟩ (isPlainAt_iff.1 (isPlainAt_of_ne hcolon t))

/-- the flags of an opener are copied -/
theorem expandFrom_flags {flags : Text} (hflags : ∀ c ∈ flags, IsFlag c) (position : ℕ) (t : Text) :
    expandFrom .outside position (flags ++ t) = emit flags (expandFrom .outside (position + flags.length) t) := by
  induction flags generalizing position with
  | nil => rw [List.nil_append, emit_nil, List.length_nil, Nat.add_zero]
  | cons c flags ih =>
    obtain ⟨hc, hflags⟩ := List.forall_mem_cons.1 hflags
    rw [List.cons_append, expandFrom_ne hc.not_mem, ih hflags, emit_emit, List.length_cons, Nat.add_assoc, Nat.add_comm 1]
    rfl

/-- an opener with flags is copied up to its colon, which is read as any other -/
theorem expandFrom_flagged {flags : Text} (hflags : ∀ c ∈ flags, IsFlag c) (hne : flags ≠ []) (position : ℕ) (t : Text) :
    expandFrom .outside position ("(?".toList ++ flags ++ t) =
      emit ("(?".toList ++ flags) (expandFrom .outside (position + 2 + flags.length) t) := by
  obtain ⟨f, more, rfl⟩ := List.exists_cons_of_ne_nil hne
  have hf := (hflags f List.mem_cons_self).not_mem
  have hopen : IsOpen '(' ('?' :: (f :: more ++ t)) := by
    refine ⟨by decide, ?_, by decide⟩
    rintro ⟨-, htake⟩
    obtain rfl : f = ':' := by simpa using htake
    simp at hf
  have hplain := isPlainAt_iff.1 (isPlainAt_of_ne (c := '(') (by decide) ('?' :: (f :: more ++ t)))
  have hstart : "(?".toList ++ (f :: more) ++ t = '(' :: '?' :: (f :: more ++ t) := rfl
  rw [hstart, expandFrom_char hopen hplain, expandFrom_ne (by decide), expandFrom_flags hflags, emit_emit, emit_emit]
  rfl

theorem isOpen_colon (t : Text) : IsOpen ':' t := ⟨by decide, fun h => absurd h.1 (by decide), by decide⟩

/-- a colon at which no shorthand begins is copied -/
theorem expandFrom_colon {t : Text} (h : IsPlainAt (':' :: t)) (position : ℕ) :
    expandFrom .outside position (':' :: t) = emit [':'] (expandFrom .outside (position + 1) t) :=
  expandFrom_char (isOpen_colon t) (isPlainAt_iff.1 h)

theorem expandFrom_spelling (k : CharClass) (position : ℕ) (t : Text) : expandFrom .outside position (k.spelling ++ t) =
    emit ('[' :: k.members ++ [']']) (expandFrom .outside (position + k.spelling.length) t) := by
  obtain ⟨w, hw⟩ : ∃ w, k.spelling = ':' :: w := ⟨_, rfl⟩
  have hfind : (CharClass.all.find? fun k' => k'.spelling.isPrefixOf (k.spelling ++ t)) = some k := by
    cases k <;> rfl
  rw [hw, List.cons_append] at hfind
  rw [hw, List.cons_append, expandFrom_shorthand (isOpen_colon _) hfind, hw, List.length_cons,
    Nat.add_sub_cancel, List.drop_left, Nat.add_assoc, Nat.add_comm 1]

/-- **Openers of groups**, behind a text that ends outside brackets. An opener without flags, or one whose colon begins no
shorthand, is copied, and what stands behind it is expanded as at the start of a constraint. Where the colon behind flags begins
a shorthand, the flags are copied and the shorthand is replaced. -/
theorem expand_opener {before flags : Text} (hbefore : EndsOutside false before) (hflags : ∀ c ∈ flags, IsFlag c)
    (after : Text) : ∃ u, expand before = .ok u ∧
      (flags = [] ∨ IsPlainAt (':' :: after) → expand (before ++ ("(?".toList ++ flags ++ ':' :: after)) =
        emit (u ++ "(?".toList ++ flags ++ [':']) (later (before.length + 3 + flags.length) (expand after))) ∧
      ∀ k more, flags ≠ [] → ':' :: after = CharClass.spelling k ++ more →
        expand (before ++ ("(?".toList ++ flags ++ ':' :: after)) =
          emit (u ++ "(?".toList ++ flags ++ ('[' :: k.members ++ [']']))
            (later (before.length + 2 + flags.length + k.spelling.length) (expand more)) := by
  obtain ⟨⟨u, hu⟩, hdangles⟩ := (endsOutside_iff .outside 0 before).1 hbefore
  have hbehind : expand (before ++ ("(?".toList ++ flags ++ ':' :: after)) =
      emit u (expandFrom .outside before.length ("(?".toList ++ flags ++ ':' :: after)) :=
    expandFrom_append (.inr rfl) hu hdangles (Nat.zero_add _)
  refine ⟨u, hu, ?_, ?_⟩
  · intro h
    have hopener : expandFrom .outside before.length ("(?".toList ++ flags ++ ':' :: after) =
        emit ("(?".toList ++ flags ++ [':']) (expandFrom .outside (before.length + 3 + flags.length) after) := by
      by_cases hne : flags = []
      · subst hne
        exact expandFrom_opener rfl
      · rw [expandFrom_flagged hflags hne, expandFrom_colon (h.resolve_left hne), emit_emit]
        congr 2
        omega
    rw [hbehind, hopener, emit_emit, expandFrom_outside]
    simp only [List.append_assoc]
  · intro k more hne hspelling
    rw [hbehind, expandFrom_flagged hflags hne, hspelling, expandFrom_spelling, emit_emit, emit_emit, expandFrom_outside]
    simp only [List.append_assoc]

/-- an opener with flags, behind an escaped parenthesis and a bracket that holds a shorthand, and in front of another one -/
theorem expand_opener_behind_brackets :
    EndsOutside false "\\([](?:[:alpha:]-]".toList ∧ (∀ c ∈ "i-s".toList, IsFlag c) ∧ IsPlainAt ":x:digit:)".toList ∧
    expand ("\\([](?:[:alpha:]-]".toList ++ ("(?".toList ++ "i-s".toList ++ ':' :: "x:digit:)".toList)) =
      .ok "\\([\\](?:\\p\x7bL\x7d\\-](?i-s:x[\\p\x7bNd\x7d])".toList := by
  have hbefore : EndsOutside false "\\([](?:[:alpha:]-]".toList := by decide +kernel
  have hflags : ∀ c ∈ "i-s".toList, IsFlag c := Text.forall_mem_of_all (by decide)
  have hplain : IsPlainAt ":x:digit:)".toList := isPlainAt_iff.2 (by decide)
  obtain ⟨u, hu, hopener, -⟩ := expand_opener hbefore hflags "x:digit:)".toList
  refine ⟨hbefore, hflags, hplain, (hopener (.inr hplain)).trans ?_⟩
  have hwritten : expand "\\([](?:[:alpha:]-]".toList = .ok "\\([\\](?:\\p\x7bL\x7d\\-]".toList := by decide +kernel
  have hafter : expand "x:digit:)".toList = .ok "x[\\p\x7bNd\x7d])".toList := by decide +kernel
  rw [Except.ok.inj (hu.symm.trans hwritten), hafter]
  rfl

/-- the colon of an opener with a flag, taken for the one of a shorthand -/
theorem flagged_opener_taken : EndsOutside false [] ∧ (∀ c ∈ ['i'], IsFlag c) ∧
    expand "alpha:)".toList = .ok "alpha:)".toList ∧
    expand ("(?".toList ++ ['i'] ++ ':' :: "alpha:)".toList) = .ok "(?i[\\p\x7bL\x7d])".toList :=
  ⟨.nil, Text.forall_mem_of_all (by decide), by decide +kernel, by decide +kernel⟩

end UriRouting.Template
