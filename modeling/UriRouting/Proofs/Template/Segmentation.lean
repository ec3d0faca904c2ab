/-
Templates cut into tokens. A scan from the left meets escape pairs, single characters and brace groups, each group closed by
the first brace that balances it (`Scans`). A brace group holds a quantifier, and is literal text, or a placeholder. The
tokens are what maximal stretches of literal pieces and single placeholders make (`Makes`).

Results:
- `scans_iff`: a template is scanned in one way, into its segments.
- `gather_error_iff`: the fault told is that of the leftmost piece that has one.
- `gather_ok_iff`: the tokens are those of the stretches that the template is cut into.
- `tokenize_faithful`: the three of them, for every template.
-/
import Mathlib.Data.List.DropRight
import UriRouting.Proofs.Template.Placeholder

namespace UriRouting.Template

open Results

/-! ## Balanced braces -/

/-- text whose braces balance, escape pairs skipped -/
inductive Balances : Text → Prop
  | nil : Balances []
  | escape (c : Char) {t : Text} (h : Balances t) : Balances ('\\' :: c :: t)
  | plain {c : Char} {t : Text} (hc : c ∉ ['\\', '{', '}']) (h : Balances t) : Balances (c :: t)
  | nested {inner t : Text} (hinner : Balances inner) (h : Balances t) : Balances ('{' :: (inner ++ '}' :: t))

theorem innerLength_plain {c : Char} (hc : c ∉ ['\\', '{', '}']) (depth : ℕ) (rest : Text) :
    innerLength depth (c :: rest) = (innerLength depth rest).map (· + 1) := by
  simp only [List.mem_cons, List.not_mem_nil, or_false, not_or] at hc
  obtain ⟨hescape, hopen, hclose⟩ := hc
  rw [innerLength]
  · exact fun h _ => hescape h
  · exact fun _ _ h _ => hescape h
  · exact hopen
  · exact fun _ h => hclose h
  · exact fun _ _ h => hclose h

/-- **Balanced text does not matter to the scan for a closing brace**, at any depth -/
theorem innerLength_balances {inner : Text} (h : Balances inner) (depth : ℕ) (rest : Text) :
    innerLength depth (inner ++ rest) = (innerLength depth rest).map (· + inner.length) := by
  induction h generalizing depth rest with
  | nil => simp
  | escape c _ ih =>
    rw [List.cons_append, List.cons_append, innerLength, ih, Option.map_map]
    rfl
  | plain hc _ ih =>
    rw [List.cons_append, innerLength_plain hc, ih, Option.map_map]
    rfl
  | @nested inner t _ _ ihinner ih =>
    have hsplit : '{' :: (inner ++ '}' :: t) ++ rest = '{' :: (inner ++ '}' :: (t ++ rest)) := by simp
    rw [hsplit, innerLength, ihinner, innerLength, ih]
    simp only [Option.map_map]
    congr 1
    funext n
    simp only [Function.comp_apply, List.length_cons, List.length_append]
    omega

/-- where a closing brace is found, balanced text stands in front of the first one that counts -/
theorem exists_balances {depth n : ℕ} {t : Text} (h : innerLength depth t = some n) :
    ∃ inner rest, Balances inner ∧ t = inner ++ '}' :: rest := by
  induction hlength : t.length using Nat.strong_induction_on generalizing t depth n with
  | _ length ih =>
    subst hlength
    cases t with
    | nil => simp [innerLength] at h
    | cons c t =>
      by_cases hc : c ∈ ['\\', '{', '}']
      · simp only [List.mem_cons, List.not_mem_nil, or_false] at hc
        rcases hc with rfl | rfl | rfl
        · cases t with
          | nil => simp [innerLength] at h
          | cons d t =>
            rw [innerLength] at h
            obtain ⟨m, hm, -⟩ := Option.map_eq_some_iff.1 h
            obtain ⟨inner, rest, hinner, rfl⟩ := ih t.length (by simp) hm rfl
            exact ⟨_, rest, .escape d hinner, rfl⟩
        · -- behind the brace that closes this one the scan goes on at the depth it came from
          rw [innerLength] at h
          obtain ⟨m, hm, -⟩ := Option.map_eq_some_iff.1 h
          obtain ⟨inner, rest, hinner, rfl⟩ := ih t.length (by simp) hm rfl
          rw [innerLength_balances hinner, innerLength, Option.map_map] at hm
          obtain ⟨k, hk, -⟩ := Option.map_eq_some_iff.1 hm
          obtain ⟨more, rest, hmore, rfl⟩ := ih rest.length (by simp; omega) hk rfl
          exact ⟨_, rest, .nested hinner hmore, by simp⟩
        · exact ⟨[], t, .nil, rfl⟩
      · rw [innerLength_plain hc] at h
        obtain ⟨m, hm, -⟩ := Option.map_eq_some_iff.1 h
        obtain ⟨inner, rest, hinner, rfl⟩ := ih t.length (by simp) hm rfl
        exact ⟨_, rest, .plain hc hinner, rfl⟩

/-- the brace that closes an open one stands behind the balanced text that comes first -/
theorem innerLength_of_balances {inner : Text} (h : Balances inner) (rest : Text) :
    innerLength 0 (inner ++ '}' :: rest) = some inner.length := by
  rw [innerLength_balances h, innerLength, Option.map_some, Nat.zero_add]

theorem innerLength_eq_none_iff {t : Text} :
    innerLength 0 t = none ↔ ∀ inner rest, t = inner ++ '}' :: rest → ¬Balances inner := by
  constructor
  · rintro h inner rest rfl hinner
    rw [innerLength_of_balances hinner] at h
    cases h
  · intro h
    cases hlength : innerLength 0 t with
    | none => rfl
    | some n =>
      obtain ⟨inner, rest, hinner, ht⟩ := exists_balances hlength
      exact absurd hinner (h inner rest ht)

/-- balanced text is what `IsBalanced` computes -/
theorem isBalanced_iff {t : Text} : IsBalanced t ↔ Balances t := by
  constructor
  · intro h
    obtain ⟨inner, rest, hinner, ht⟩ := exists_balances h
    have hlength := innerLength_of_balances hinner rest
    rw [← ht, show innerLength 0 (t ++ ['}']) = some t.length from h] at hlength
    obtain rfl := (List.append_inj ht (Option.some.inj hlength)).1
    exact hinner
  · intro h
    exact innerLength_of_balances h []

instance (t : Text) : Decidable (Balances t) := decidable_of_iff _ isBalanced_iff

/-! ## The scan -/

/-- what a scan of the text from the left meets -/
inductive Scans : Text → List Segment → Prop
  | nil : Scans [] []
  | lone : Scans ['\\'] [.plain '\\']
  | escape (c : Char) {t : Text} {more : List Segment} (h : Scans t more) : Scans ('\\' :: c :: t) (.escape c :: more)
  | plain {c : Char} {t : Text} {more : List Segment} (hc : c ∉ ['\\', '{']) (h : Scans t more) :
    Scans (c :: t) (.plain c :: more)
  | braces {inner t : Text} {more : List Segment} (hinner : Balances inner) (h : Scans t more) :
    Scans ('{' :: (inner ++ '}' :: t)) (.braces inner :: more)
  | unclosed {t : Text} (h : ∀ inner rest, t = inner ++ '}' :: rest → ¬Balances inner) : Scans ('{' :: t) [.unclosed t]

theorem segments_plain {c : Char} (hc : c ∉ ['\\', '{']) (t : Text) : segments (c :: t) = .plain c :: segments t := by
  simp only [List.mem_cons, List.not_mem_nil, or_false, not_or] at hc
  obtain ⟨hescape, hopen⟩ := hc
  rw [segments]
  · exact fun h _ => hescape h
  · exact fun _ _ h _ => hescape h
  · exact hopen

theorem segments_braces {inner : Text} (h : Balances inner) (t : Text) :
    segments ('{' :: (inner ++ '}' :: t)) = .braces inner :: segments t := by
  have hdrop : (inner ++ '}' :: t).drop (inner.length + 1) = t := by
    rw [← List.drop_drop, List.drop_left]
    rfl
  rw [segments_open, innerLength_of_balances h]
  simp only [List.take_left, hdrop]

theorem segments_unclosed {t : Text} (h : ∀ inner rest, t = inner ++ '}' :: rest → ¬Balances inner) :
    segments ('{' :: t) = [.unclosed t] := by
  rw [segments_open, innerLength_eq_none_iff.2 h]

theorem scans_segments (t : Text) : Scans t (segments t) := by
  induction hlength : t.length using Nat.strong_induction_on generalizing t with
  | _ length ih =>
    subst hlength
    cases t with
    | nil =>
      rw [segments]
      exact .nil
    | cons c t =>
      by_cases hc : c ∈ ['\\', '{']
      · simp only [List.mem_cons, List.not_mem_nil, or_false] at hc
        rcases hc with rfl | rfl
        · cases t with
          | nil =>
            rw [segments]
            exact .lone
          | cons d t =>
            rw [segments]
            exact .escape d (ih t.length (by simp) t rfl)
        · cases hinner : innerLength 0 t with
          | none =>
            have hnone := innerLength_eq_none_iff.1 hinner
            rw [segments_unclosed hnone]
            exact .unclosed hnone
          | some n =>
            obtain ⟨inner, rest, hbalances, rfl⟩ := exists_balances hinner
            rw [segments_braces hbalances]
            exact .braces hbalances (ih rest.length (by simp; omega) rest rfl)
      · rw [segments_plain hc]
        exact .plain hc (ih t.length (by simp) t rfl)

/-- **A template is scanned in one way** -/
theorem scans_iff {t : Text} {pieces : List Segment} : Scans t pieces ↔ segments t = pieces := by
  constructor
  · intro h
    induction h with
    | nil => rw [segments]
    | lone => rw [segments]
    | escape c _ ih => rw [segments, ih]
    | plain hc _ ih => rw [segments_plain hc, ih]
    | braces hinner _ ih => rw [segments_braces hinner, ih]
    | unclosed h => rw [segments_unclosed h]
  · rintro rfl
    exact scans_segments t

/-! ## Pieces -/

/-- digits, and behind them perhaps a comma and any number of digits -/
def IsQuantifier (inner : Text) : Prop :=
  ∃ lower, lower ≠ [] ∧ (∀ c ∈ lower, Codepoint.isDecimalDigit c.toNat = true) ∧
    (inner = lower ∨ ∃ upper, (∀ c ∈ upper, Codepoint.isDecimalDigit c.toNat = true) ∧ inner = lower ++ ',' :: upper)

theorem isQuantifier_iff {inner : Text} : isQuantifier inner = true ↔ IsQuantifier inner := by
  let isDigit := fun c : Char => Codepoint.isDecimalDigit c.toNat
  have hcomma : isDigit ',' = false := by decide +kernel
  have hrun : ∀ {lower : Text} (rest : Text), (∀ c ∈ lower, isDigit c = true) → (∀ c ∈ rest.head?, isDigit c = false) →
      (lower ++ rest).takeWhile isDigit = lower ∧ (lower ++ rest).dropWhile isDigit = rest := by
    intro lower rest hlower hrest
    rw [List.takeWhile_append_of_pos hlower, List.dropWhile_append_of_pos hlower]
    cases rest with
    | nil => simp
    | cons c rest => simp [hrest c rfl]
  have hunfold : isQuantifier inner = (!(inner.takeWhile isDigit).isEmpty &&
    ((inner.dropWhile isDigit).head?.all (· == ',') && (inner.dropWhile isDigit).tail.all isDigit)) := isQuantifier_eq inner
  constructor
  · intro h
    rw [hunfold, Bool.and_eq_true] at h
    obtain ⟨hlower, hrest⟩ := h
    have hwhole := List.takeWhile_append_dropWhile (p := isDigit) (l := inner)
    have hdigits : ∀ c ∈ inner.takeWhile isDigit, isDigit c = true :=
      fun c hc => List.all_eq_true.1 List.all_takeWhile c hc
    refine ⟨inner.takeWhile isDigit, by simpa using hlower, hdigits, ?_⟩
    cases hdrop : inner.dropWhile isDigit with
    | nil =>
      rw [hdrop, List.append_nil] at hwhole
      exact .inl hwhole.symm
    | cons c rest =>
      rw [hdrop] at hrest hwhole
      simp only [List.head?_cons, Option.all_some, List.tail_cons, Bool.and_eq_true, beq_iff_eq, List.all_eq_true] at hrest
      obtain ⟨rfl, hall⟩ := hrest
      exact .inr ⟨rest, hall, hwhole.symm⟩
  · rintro ⟨lower, hne, hlower, rfl | ⟨upper, hupper, rfl⟩⟩
    · obtain ⟨htake, hdrop⟩ := hrun [] hlower (by simp)
      rw [List.append_nil] at htake hdrop
      rw [hunfold, htake, hdrop]
      simpa using hne
    · obtain ⟨htake, hdrop⟩ := hrun (',' :: upper) hlower (by simpa using hcomma)
      rw [hunfold, htake, hdrop]
      simp only [List.head?_cons, Option.all_some, List.tail_cons, beq_self_eq_true, Bool.true_and, Bool.and_eq_true,
        List.all_eq_true]
      exact ⟨by simpa using hne, hupper⟩

instance (inner : Text) : Decidable (IsQuantifier inner) := decidable_of_iff _ isQuantifier_iff

/-- a piece that is literal text -/
def Segment.IsLiteral : Segment → Prop
  | escape _ | plain _ => True
  | braces inner => IsQuantifier inner
  | unclosed _ => False

/-- the fault of a piece that starts at the position -/
inductive Segment.HasFault (position : ℕ) : Segment → Fault → Prop
  /-- nothing closes the brace -/
  | unclosed (rest : Text) : HasFault position (.unclosed rest) (.unbalanced position)
  /-- braces for a placeholder, and nothing but blanks in front of the first colon -/
  | unnamed {inner : Text} (hquantifier : ¬IsQuantifier inner) (hname : ∀ c ∈ (inner.cutAt ':').1, isBlank c = true) :
    HasFault position (.braces inner) (.unnamed inner)

def Segment.IsSound (s : Segment) : Prop := ∀ position f, ¬s.HasFault position f

/-- the constraint that the text behind the first colon gives -/
def constraintOf (after : Option Text) : Option Text :=
  match after with
  | none => none
  | some t => if t.trim = [] then none else some t.trim

theorem trim_of_constraintOf {after : Option Text} {k : Text} (h : constraintOf after = some k) :
    ∃ t, after = some t ∧ t.trim = k := by
  cases after with
  | none => cases h
  | some t =>
    rw [constraintOf] at h
    split at h
    · cases h
    · exact ⟨t, rfl, Option.some.inj h⟩

/-- the token that a stretch of pieces makes -/
inductive Makes : List Segment → Token → Prop
  /-- literal pieces, verbatim -/
  | literal {stretch : List Segment} (hne : stretch ≠ []) (h : ∀ s ∈ stretch, s.IsLiteral) :
    Makes stretch (.literal (stretch.flatMap Segment.text))
  /-- one placeholder: its name in front of the first colon, its constraint behind it -/
  | parameter {inner : Text} (hquantifier : ¬IsQuantifier inner) (hname : (inner.cutAt ':').1.trim ≠ []) :
    Makes [.braces inner] (.parameter (inner.cutAt ':').1.trim (constraintOf (inner.cutAt ':').2))

def Token.IsLiteral : Token → Prop
  | literal _ => True
  | parameter _ _ => False

instance : DecidablePred Token.IsLiteral
  | .literal _ => .isTrue trivial
  | .parameter _ _ => .isFalse id

/-- no two literals are neighbours -/
def AreApart (tokens : List Token) : Prop := tokens.IsChain fun a b => ¬(a.IsLiteral ∧ b.IsLiteral)

instance (tokens : List Token) : Decidable (AreApart tokens) := inferInstanceAs (Decidable (List.IsChain _ _))

/-- the tokens are what stretches of a template make, in order, and nothing is lost -/
structure CutBy (t : Text) (pieces : List Segment) (tokens : List Token) (stretches : List (List Segment)) : Prop where
  pieces : stretches.flatten = pieces
  whole : (stretches.flatMap fun stretch => stretch.flatMap Segment.text) = t
  makes : List.Forall₂ Makes stretches tokens
  apart : AreApart tokens

theorem trim_eq_nil_iff {t : Text} : t.trim = [] ↔ ∀ c ∈ t, isBlank c = true := by
  constructor
  · intro h
    rw [Text.trim, List.reverse_eq_nil_iff, List.dropWhile_eq_nil_iff] at h
    simp only [List.mem_reverse] at h
    intro c hc
    rw [← List.takeWhile_append_dropWhile (p := isBlank) (l := t)] at hc
    rcases List.mem_append.1 hc with hc | hc
    · exact List.all_eq_true.1 List.all_takeWhile c hc
    · exact h c hc
  · intro h
    rw [Text.trim, List.dropWhile_eq_nil_iff.2 h]
    rfl

theorem parameter?_eq (inner : Text) : parameter? inner =
    if (inner.cutAt ':').1.trim = [] then none
    else some (.parameter (inner.cutAt ':').1.trim (constraintOf (inner.cutAt ':').2)) := by
  have hnil : Text.trim [] = [] := rfl
  simp only [parameter?]
  cases hname : (inner.cutAt ':').1.trim with
  | nil => rfl
  | cons c name =>
    cases hafter : (inner.cutAt ':').2 with
    | none => rfl
    | some t =>
      simp only [Option.getD_some, constraintOf]
      cases t.trim <;> rfl

theorem Segment.text_ne_nil (s : Segment) : s.text ≠ [] := by
  cases s <;> exact List.cons_ne_nil _ _

/-! ## Gathering pieces -/

theorem gather_literal {s : Segment} (h : s.IsLiteral) (pending : Text) (position : ℕ) (rest : List Segment) :
    gather pending position (s :: rest) = gather (pending ++ s.text) (position + s.text.length) rest := by
  cases s with
  | escape c => rfl
  | plain c => rfl
  | unclosed t => exact absurd h id
  | braces inner =>
    have hlength : position + (Segment.braces inner).text.length = position + inner.length + 2 := by
      simp [Segment.text, Nat.add_assoc]
    rw [gather, if_pos (isQuantifier_iff.2 h), hlength]

theorem gather_literals {stretch : List Segment} (h : ∀ s ∈ stretch, s.IsLiteral) (pending : Text) (position : ℕ)
    (rest : List Segment) : gather pending position (stretch ++ rest) =
      gather (pending ++ stretch.flatMap Segment.text) (position + (stretch.flatMap Segment.text).length) rest := by
  induction stretch generalizing pending position with
  | nil => simp
  | cons s stretch ih =>
    obtain ⟨hs, hstretch⟩ := List.forall_mem_cons.1 h
    rw [List.cons_append, gather_literal hs, ih hstretch, List.flatMap_cons, List.length_append, List.append_assoc,
      Nat.add_assoc]

theorem gather_parameter {inner : Text} (hquantifier : ¬IsQuantifier inner) (hname : (inner.cutAt ':').1.trim ≠ [])
    (pending : Text) (position : ℕ) (rest : List Segment) : gather pending position (.braces inner :: rest) =
      (gather [] (position + (Segment.braces inner).text.length) rest).map fun tokens =>
        flush pending (.parameter (inner.cutAt ':').1.trim (constraintOf (inner.cutAt ':').2) :: tokens) := by
  have hlength : position + (Segment.braces inner).text.length = position + inner.length + 2 := by
    simp [Segment.text, Nat.add_assoc]
  rw [gather, if_neg (fun h => hquantifier (isQuantifier_iff.1 h)), parameter?_eq, if_neg hname, hlength]

theorem gather_fault {s : Segment} {position : ℕ} {f : Fault} (h : s.HasFault position f) (pending : Text)
    (rest : List Segment) : gather pending position (s :: rest) = .error f := by
  cases h with
  | unclosed t => rfl
  | unnamed hquantifier hname =>
    rw [gather, if_neg (fun h => hquantifier (isQuantifier_iff.1 h)), parameter?_eq, if_pos (trim_eq_nil_iff.2 hname)]

/-- a piece is literal text, names a placeholder, or has a fault -/
theorem Segment.cases_sound (s : Segment) : s.IsLiteral ∨
    (∃ inner, s = .braces inner ∧ ¬IsQuantifier inner ∧ (inner.cutAt ':').1.trim ≠ []) ∨
      ∀ position, ∃ f, s.HasFault position f := by
  cases s with
  | escape c => exact .inl trivial
  | plain c => exact .inl trivial
  | unclosed t => exact .inr (.inr fun position => ⟨_, .unclosed t⟩)
  | braces inner =>
    by_cases hquantifier : IsQuantifier inner
    · exact .inl hquantifier
    · by_cases hname : (inner.cutAt ':').1.trim = []
      · exact .inr (.inr fun position => ⟨_, .unnamed hquantifier (trim_eq_nil_iff.1 hname)⟩)
      · exact .inr (.inl ⟨inner, rfl, hquantifier, hname⟩)

theorem Segment.IsLiteral.isSound {s : Segment} (h : s.IsLiteral) : s.IsSound := by
  intro position f hf
  cases hf with
  | unclosed t => exact h
  | unnamed hquantifier hname => exact hquantifier h

theorem isSound_of_name {inner : Text} (hname : (inner.cutAt ':').1.trim ≠ []) : (Segment.braces inner).IsSound := by
  intro position f hf
  cases hf with
  | unnamed hquantifier hblank => exact hname (trim_eq_nil_iff.2 hblank)

theorem Segment.exists_fault (s : Segment) (h : ¬s.IsSound) (position : ℕ) : ∃ f, s.HasFault position f := by
  rcases s.cases_sound with hliteral | ⟨inner, rfl, -, hname⟩ | hfault
  · exact absurd hliteral.isSound h
  · exact absurd (isSound_of_name hname) h
  · exact hfault position

/-- behind a sound piece the pieces that follow decide -/
theorem gather_sound {s : Segment} (h : s.IsSound) (pending : Text) (position : ℕ) (rest : List Segment) :
    ∃ pending' g, gather pending position (s :: rest) = (gather pending' (position + s.text.length) rest).map g := by
  rcases s.cases_sound with hliteral | ⟨inner, rfl, hquantifier, hname⟩ | hfault
  · refine ⟨pending ++ s.text, id, ?_⟩
    rw [gather_literal hliteral]
    cases gather (pending ++ s.text) (position + s.text.length) rest <;> rfl
  · exact ⟨[], _, gather_parameter hquantifier hname pending position rest⟩
  · obtain ⟨f, hf⟩ := hfault 0
    exact absurd hf (h 0 f)

/-- **The fault told is that of the leftmost piece that has one** -/
theorem gather_error_iff {pending : Text} {position : ℕ} {pieces : List Segment} {f : Fault} :
    gather pending position pieces = .error f ↔ ∃ before piece after, pieces = before ++ piece :: after ∧
      (∀ s ∈ before, s.IsSound) ∧ piece.HasFault (position + (before.flatMap Segment.text).length) f := by
  constructor
  · intro h
    induction pieces generalizing pending position with
    | nil => cases h
    | cons s rest ih =>
      by_cases hsound : s.IsSound
      · obtain ⟨pending', g, hgather⟩ := gather_sound hsound pending position rest
        rw [hgather, map_eq_error_iff] at h
        obtain ⟨before, piece, after, rfl, hbefore, hfault⟩ := ih h
        refine ⟨s :: before, piece, after, rfl, List.forall_mem_cons.2 ⟨hsound, hbefore⟩, ?_⟩
        rwa [List.flatMap_cons, List.length_append, ← Nat.add_assoc]
      · obtain ⟨g, hg⟩ := s.exists_fault hsound position
        rw [gather_fault hg] at h
        exact ⟨[], s, rest, rfl, by simp, Except.error.inj h ▸ hg⟩
  · rintro ⟨before, piece, after, rfl, hbefore, hfault⟩
    induction before generalizing pending position with
    | nil => exact gather_fault hfault pending after
    | cons s before ih =>
      obtain ⟨hs, hbefore⟩ := List.forall_mem_cons.1 hbefore
      obtain ⟨pending', g, hgather⟩ := gather_sound hs pending position (before ++ piece :: after)
      rw [List.cons_append, hgather, map_eq_error_iff]
      apply ih hbefore
      rwa [List.flatMap_cons, List.length_append, ← Nat.add_assoc] at hfault

theorem AreApart.cons_parameter {n : Text} {k : Option Text} {tokens : List Token} (h : AreApart tokens) :
    AreApart (.parameter n k :: tokens) :=
  List.isChain_cons.2 ⟨fun _ _ hab => hab.1, h⟩

/-- literal pieces in front of stretches whose tokens do not start with a literal are a stretch of their own, if there are any -/
theorem exists_flushed {front : List Segment} (hfront : ∀ s ∈ front, s.IsLiteral) {stretches : List (List Segment)}
    {tokens : List Token} (hmakes : List.Forall₂ Makes stretches tokens) (hapart : AreApart tokens)
    (hhead : ∀ t ∈ tokens.head?, ¬t.IsLiteral) : ∃ all, all.flatten = front ++ stretches.flatten ∧
      List.Forall₂ Makes all (flush (front.flatMap Segment.text) tokens) ∧
      AreApart (flush (front.flatMap Segment.text) tokens) := by
  cases front with
  | nil => exact ⟨stretches, rfl, hmakes, hapart⟩
  | cons s front =>
    have hne : (s :: front).flatMap Segment.text ≠ [] := by simp [s.text_ne_nil]
    rw [flush_of_ne_nil hne]
    refine ⟨(s :: front) :: stretches, rfl, .cons (.literal (List.cons_ne_nil s front) hfront) hmakes, ?_⟩
    exact List.isChain_cons.2 ⟨fun t ht hab => hhead t ht hab.2, hapart⟩

/-- the tokens read are those of stretches; literal pieces that are pending belong to the first one -/
theorem exists_stretches {front pieces : List Segment} (hfront : ∀ s ∈ front, s.IsLiteral) {position : ℕ}
    {tokens : List Token} (h : gather (front.flatMap Segment.text) position pieces = .ok tokens) :
    ∃ stretches, stretches.flatten = front ++ pieces ∧ List.Forall₂ Makes stretches tokens ∧ AreApart tokens := by
  induction pieces generalizing front position tokens with
  | nil =>
    obtain rfl := Except.ok.inj h
    exact exists_flushed hfront .nil .nil (by simp)
  | cons s pieces ih =>
    rcases s.cases_sound with hliteral | ⟨inner, rfl, hquantifier, hname⟩ | hfault
    · have hmore : ∀ s' ∈ front ++ [s], s'.IsLiteral := by
        intro s' hs'
        rcases List.mem_append.1 hs' with hs' | hs'
        · exact hfront s' hs'
        · exact List.mem_singleton.1 hs' ▸ hliteral
      rw [gather_literal hliteral, ← List.flatMap_singleton Segment.text s, ← List.flatMap_append] at h
      rw [List.append_cons]
      exact ih hmore h
    · rw [gather_parameter hquantifier hname] at h
      obtain ⟨more, hmore, rfl⟩ := map_eq_ok_iff.1 h
      obtain ⟨stretches, hflatten, hmakes, hapart⟩ := @ih [] (by simp) _ _ hmore
      obtain ⟨all, hall, hread⟩ := exists_flushed hfront (.cons (.parameter hquantifier hname) hmakes)
        hapart.cons_parameter (by simp [Token.IsLiteral])
      exact ⟨all, by rw [hall, List.flatten_cons, hflatten]; rfl, hread⟩
    · obtain ⟨f, hf⟩ := hfault position
      rw [gather_fault hf] at h
      cases h

/-- stretches are read as the tokens that they make, behind text that is pending and a literal if one comes first -/
theorem gather_flatten {stretches : List (List Segment)} {tokens : List Token} (h : List.Forall₂ Makes stretches tokens)
    (hapart : AreApart tokens) {pending : Text}
    (hpending : pending = [] ∨ ∀ t ∈ tokens.head?, ¬t.IsLiteral) (position : ℕ) :
    gather pending position stretches.flatten = .ok (flush pending tokens) := by
  induction h generalizing pending position with
  | nil => rfl
  | @cons stretch token stretches tokens hmakes _ ih =>
    obtain ⟨hhead, hrest⟩ := List.isChain_cons.1 hapart
    rw [List.flatten_cons]
    cases hmakes with
    | literal hne hliterals =>
      obtain rfl : pending = [] := hpending.resolve_right fun h => h _ rfl trivial
      have htext : stretch.flatMap Segment.text ≠ [] := by
        obtain ⟨s, more, rfl⟩ := List.exists_cons_of_ne_nil hne
        simp [s.text_ne_nil]
      rw [gather_literals hliterals, List.nil_append, ih hrest (.inr fun t ht hlit => hhead t ht ⟨trivial, hlit⟩),
        flush_of_ne_nil htext]
      rfl
    | parameter hquantifier hname =>
      rw [List.singleton_append, gather_parameter hquantifier hname, ih hrest (.inl rfl)]
      rfl

/-- **The tokens read are those of the stretches that the pieces are cut into** -/
theorem gather_ok_iff {position : ℕ} {pieces : List Segment} {tokens : List Token} :
    gather [] position pieces = .ok tokens ↔ ∃ stretches, stretches.flatten = pieces ∧
      List.Forall₂ Makes stretches tokens ∧ AreApart tokens := by
  constructor
  · intro h
    exact @exists_stretches [] _ (by simp) _ _ h
  · rintro ⟨stretches, rfl, hmakes, hapart⟩
    exact gather_flatten hmakes hapart (.inl rfl) position

/-- **A template is cut faithfully into tokens.** It is scanned in one way. Either a piece has a fault, and then the fault told
is that of the leftmost such piece, with its position; or the tokens are what the stretches make that the template is cut
into, with nothing lost, and no two literals side by side. -/
theorem tokenize_faithful (t : Text) : ∃ pieces, Scans t pieces ∧ (∀ other, Scans t other → other = pieces) ∧
    (∀ f, tokenize t = .error f ↔ ∃ before piece after, pieces = before ++ piece :: after ∧
      (∀ s ∈ before, s.IsSound) ∧ piece.HasFault (before.flatMap Segment.text).length f) ∧
    ∀ tokens, tokenize t = .ok tokens ↔ ∃ stretches, CutBy t pieces tokens stretches := by
  refine ⟨segments t, scans_segments t, fun other h => (scans_iff.1 h).symm, fun f => ?_, fun tokens => ?_⟩
  · rw [tokenize, gather_error_iff]
    simp only [Nat.zero_add]
  · rw [tokenize, gather_ok_iff]
    constructor
    · rintro ⟨stretches, hflatten, hmakes, hapart⟩
      refine ⟨stretches, hflatten, ?_, hmakes, hapart⟩
      rw [← segments_text t, ← hflatten, List.flatten_eq_flatMap, List.flatMap_assoc]
      rfl
    · rintro ⟨stretches, hcut⟩
      exact ⟨stretches, hcut.pieces, hcut.makes, hcut.apart⟩

end UriRouting.Template
