/-
Printing tokens and reading them back. A token list that a template can write (`IsPrintable`) is read from what it prints: the
scan comes to the end of each token where the printer put it.

- `segments_literal`, `segments_print`: what is printed is scanned into a stretch for each token, in front of any rest.
- `tokenize_print`: printed and read, a token list is what it was.
-/
import UriRouting.Proofs.Template.Segmentation

namespace UriRouting.Template

/-! ## What a template can write -/

/-- text between placeholders: an opening brace begins a quantifier, and a backslash has a character behind it, unless one may
stand alone at the end -/
inductive IsLiteralText (lone : Bool) : Text → Prop
  | nil : IsLiteralText lone []
  | lone (h : lone = true) : IsLiteralText lone ['\\']
  | escape (c : Char) {t : Text} (h : IsLiteralText lone t) : IsLiteralText lone ('\\' :: c :: t)
  | plain {c : Char} {t : Text} (hc : c ∉ ['\\', '{']) (h : IsLiteralText lone t) : IsLiteralText lone (c :: t)
  | quantifier {inner t : Text} (hinner : IsQuantifier inner) (h : IsLiteralText lone t) :
    IsLiteralText lone ('{' :: (inner ++ '}' :: t))

/-- a name as a template may write it -/
structure IsNameText (n : Text) : Prop where
  nonempty : n ≠ []
  trimmed : n.trim = n
  plain : ∀ c ∈ n, c ∉ [':', '{', '}', '\\']

/-- a constraint as a template may write it; a text that balances does not end in a lone backslash -/
structure IsConstraintText (k : Text) : Prop where
  nonempty : k ≠ []
  trimmed : k.trim = k
  balances : Balances k

/-- a token as a template may write it, at its end or before -/
def Token.IsPrintable (last : Bool) : Token → Prop
  | literal t => t ≠ [] ∧ IsLiteralText last t
  | parameter n none => IsNameText n ∧ ¬IsQuantifier n
  | parameter n (some k) => IsNameText n ∧ IsConstraintText k

/-- a token list that a template can write -/
structure IsPrintable (tokens : List Token) : Prop where
  apart : AreApart tokens
  inner : ∀ token ∈ tokens.dropLast, token.IsPrintable false
  last : ∀ token ∈ tokens.getLast?, token.IsPrintable true

/-! ## Literals -/

theorem IsQuantifier.balances {inner : Text} (h : IsQuantifier inner) : Balances inner := by
  have hsign : ∀ c ∈ ['\\', '{', '}'], Codepoint.isDecimalDigit c.toNat = false := by
    simp only [List.mem_cons, List.not_mem_nil, or_false, forall_eq_or_imp, forall_eq]
    decide +kernel
  have hplain : ∀ {t : Text}, (∀ c ∈ t, Codepoint.isDecimalDigit c.toNat = true ∨ c = ',') → Balances t := by
    intro t ht
    induction t with
    | nil => exact .nil
    | cons c t ih =>
      obtain ⟨hc, ht⟩ := List.forall_mem_cons.1 ht
      refine .plain ?_ (ih ht)
      rcases hc with hc | rfl
      · intro hmem
        rw [hsign c hmem] at hc
        cases hc
      · decide
  obtain ⟨lower, -, hlower, rfl | ⟨upper, hupper, rfl⟩⟩ := h
  · exact hplain fun c hc => .inl (hlower c hc)
  · apply hplain
    intro c hc
    rcases List.mem_append.1 hc with hc | hc
    · exact .inl (hlower c hc)
    · rcases List.mem_cons.1 hc with rfl | hc
      · exact .inr rfl
      · exact .inl (hupper c hc)

/-- **Literal text is scanned into literal pieces**, in front of any rest unless it ends in a lone backslash -/
theorem segments_literal {lone : Bool} {t : Text} (h : IsLiteralText lone t) : ∃ stretch : List Segment,
    (∀ s ∈ stretch, s.IsLiteral) ∧ stretch.flatMap Segment.text = t ∧
      ∀ rest, lone = false ∨ rest = [] → segments (t ++ rest) = stretch ++ segments rest := by
  induction h with
  | nil => exact ⟨[], by simp, rfl, fun _ _ => rfl⟩
  | lone h =>
    refine ⟨[.plain '\\'], by simp [Segment.IsLiteral], rfl, ?_⟩
    rintro rest (hlone | rfl)
    · rw [h] at hlone
      cases hlone
    · simp [segments]
  | escape c _ ih =>
    obtain ⟨stretch, hliteral, htext, hscan⟩ := ih
    refine ⟨.escape c :: stretch, List.forall_mem_cons.2 ⟨trivial, hliteral⟩, ?_, fun rest hrest => ?_⟩
    · rw [List.flatMap_cons, htext]
      rfl
    · rw [List.cons_append, List.cons_append, segments, hscan rest hrest]
      rfl
  | @plain c t hc _ ih =>
    obtain ⟨stretch, hliteral, htext, hscan⟩ := ih
    refine ⟨.plain c :: stretch, List.forall_mem_cons.2 ⟨trivial, hliteral⟩, ?_, fun rest hrest => ?_⟩
    · rw [List.flatMap_cons, htext]
      rfl
    · rw [List.cons_append, segments_plain hc, hscan rest hrest]
      rfl
  | @quantifier inner t hinner _ ih =>
    obtain ⟨stretch, hliteral, htext, hscan⟩ := ih
    refine ⟨.braces inner :: stretch, List.forall_mem_cons.2 ⟨hinner, hliteral⟩, ?_, fun rest hrest => ?_⟩
    · rw [List.flatMap_cons, htext]
      simp [Segment.text]
    · have hsplit : '{' :: (inner ++ '}' :: t) ++ rest = '{' :: (inner ++ '}' :: (t ++ rest)) := by simp
      rw [hsplit, segments_braces hinner.balances, hscan rest hrest]
      rfl

/-! ## Placeholders -/

theorem Balances.append {s t : Text} (hs : Balances s) (ht : Balances t) : Balances (s ++ t) := by
  induction hs with
  | nil => exact ht
  | escape c _ ih => exact .escape c ih
  | plain hc _ ih => exact .plain hc ih
  | @nested inner s hinner _ _ ih =>
    have hsplit : '{' :: (inner ++ '}' :: s) ++ t = '{' :: (inner ++ '}' :: (s ++ t)) := by simp
    rw [hsplit]
    exact .nested hinner ih

namespace IsNameText

variable {n : Text}

theorem colon (h : IsNameText n) : ':' ∉ n := fun hmem => h.plain ':' hmem List.mem_cons_self

theorem balances (h : IsNameText n) : Balances n := by
  have hplain : ∀ {t : Text}, (∀ c ∈ t, c ∉ ['\\', '{', '}']) → Balances t := by
    intro t ht
    induction t with
    | nil => exact .nil
    | cons c t ih =>
      obtain ⟨hc, ht⟩ := List.forall_mem_cons.1 ht
      exact .plain hc (ih ht)
  apply hplain
  intro c hc hmem
  apply h.plain c hc
  simp only [List.mem_cons, List.not_mem_nil, or_false] at hmem ⊢
  tauto

end IsNameText

theorem cutAt_eq_self {c : Char} {t : Text} (h : c ∉ t) : t.cutAt c = (t, none) := by
  induction t with
  | nil => rfl
  | cons d t ih =>
    rw [List.mem_cons, not_or] at h
    rw [Text.cutAt, if_neg (Ne.symm h.1), ih h.2]

/-- **A placeholder is scanned into its braces**, which make it -/
theorem segments_parameter {n : Text} {constraint : Option Text} {last : Bool}
    (h : (Token.parameter n constraint).IsPrintable last) : ∃ inner, Makes [.braces inner] (.parameter n constraint) ∧
      ∀ rest, segments ((Token.parameter n constraint).print ++ rest) = .braces inner :: segments rest := by
  cases constraint with
  | none =>
    obtain ⟨hn, hquantifier⟩ := h
    have hcut := cutAt_eq_self hn.colon
    have hmakes := Makes.parameter hquantifier (by rw [hcut, hn.trimmed]; exact hn.nonempty)
    rw [hcut] at hmakes
    refine ⟨n, by simpa only [hn.trimmed, constraintOf] using hmakes, fun rest => ?_⟩
    have hprint : (Token.parameter n none).print ++ rest = '{' :: (n ++ '}' :: rest) := by simp [Token.print]
    rw [hprint, segments_braces hn.balances]
  | some k =>
    obtain ⟨hn, hk⟩ := h
    have hcut := Text.cutAt_of_not_mem hn.colon (' ' :: k)
    have hquantifier : ¬IsQuantifier (n ++ ':' :: ' ' :: k) := by
      rw [← isQuantifier_iff, isQuantifier_constrained]
      exact Bool.false_ne_true
    have hconstraint : constraintOf (some (' ' :: k)) = some k := by
      rw [constraintOf, trim_space, hk.trimmed, if_neg hk.nonempty]
    have hmakes := Makes.parameter hquantifier (by rw [hcut, hn.trimmed]; exact hn.nonempty)
    rw [hcut] at hmakes
    have hbalances : Balances (n ++ ':' :: ' ' :: k) :=
      hn.balances.append (.plain (by decide) (.plain (by decide) hk.balances))
    refine ⟨_, by simpa only [hn.trimmed, hconstraint] using hmakes, fun rest => ?_⟩
    have hprint : (Token.parameter n (some k)).print ++ rest = '{' :: (n ++ ':' :: ' ' :: k ++ '}' :: rest) := by
      simp [Token.print]
    rw [hprint, segments_braces hbalances]

/-! ## Token lists -/

/-- a token is scanned into a stretch that makes it, in front of any rest unless it is the last one -/
theorem segments_token {token : Token} {last : Bool} (h : token.IsPrintable last) : ∃ stretch, Makes stretch token ∧
    ∀ rest, last = false ∨ rest = [] → segments (token.print ++ rest) = stretch ++ segments rest := by
  cases token with
  | literal t =>
    obtain ⟨hne, ht⟩ := h
    obtain ⟨stretch, hliteral, rfl, hscan⟩ := segments_literal ht
    refine ⟨stretch, .literal ?_ hliteral, hscan⟩
    rintro rfl
    exact hne rfl
  | parameter n constraint =>
    obtain ⟨inner, hmakes, hscan⟩ := segments_parameter h
    exact ⟨_, hmakes, fun rest _ => hscan rest⟩

/-- **What is printed is scanned into a stretch for each token** -/
theorem segments_print {tokens : List Token} (hinner : ∀ token ∈ tokens.dropLast, token.IsPrintable false)
    (hlast : ∀ token ∈ tokens.getLast?, token.IsPrintable true) :
    ∃ stretches, List.Forall₂ Makes stretches tokens ∧ segments (print tokens) = stretches.flatten := by
  induction tokens with
  | nil => exact ⟨[], .nil, by rw [print, List.flatMap_nil, segments, List.flatten_nil]⟩
  | cons token tokens ih =>
    cases tokens with
    | nil =>
      obtain ⟨stretch, hmakes, hscan⟩ := segments_token (hlast token rfl)
      have hrest := hscan [] (.inr rfl)
      rw [List.append_nil, segments, List.append_nil] at hrest
      refine ⟨[stretch], .cons hmakes .nil, ?_⟩
      rw [print, List.flatMap_singleton, hrest, List.flatten_singleton]
    | cons next tokens =>
      obtain ⟨htoken, hinner⟩ := List.forall_mem_cons.1 hinner
      obtain ⟨stretch, hmakes, hscan⟩ := segments_token htoken
      obtain ⟨stretches, hmore, hprint⟩ := ih hinner hlast
      refine ⟨stretch :: stretches, .cons hmakes hmore, ?_⟩
      rw [List.flatten_cons, ← hprint, ← hscan _ (.inl rfl)]
      rfl

/-- **Printed and read, a token list is what it was** -/
theorem tokenize_print {tokens : List Token} (h : IsPrintable tokens) : tokenize (print tokens) = .ok tokens := by
  obtain ⟨stretches, hmakes, hprint⟩ := segments_print h.inner h.last
  rw [tokenize, hprint]
  exact gather_ok_iff.2 ⟨stretches, rfl, hmakes, h.apart⟩

/-- literals with a quantifier, escaped braces and a lone backslash; a constraint with colons, braces and an escaped one -/
theorem tokenize_print_nested :
    let tokens : List Token := [.literal "/a\x7b2,\x7d\\\x7b".toList,
      .parameter "3".toList (some "a:\x7b2\x7d\\\x7db\x7bc\x7d".toList), .parameter "x y".toList none,
      .literal "\x7d\\".toList]
    IsPrintable tokens ∧ print tokens =
      "/a\x7b2,\x7d\\\x7b\x7b3: a:\x7b2\x7d\\\x7db\x7bc\x7d\x7d\x7bx y\x7d\x7d\\".toList ∧
      tokenize (print tokens) = .ok tokens := by
  intro tokens
  have hbraces : IsLiteralText false ('{' :: ("2,".toList ++ '}' :: "\\\x7b".toList)) :=
    .quantifier (by decide +kernel) (.escape '{' .nil)
  have hquantifier : IsLiteralText false "/a\x7b2,\x7d\\\x7b".toList := .plain (by decide) (.plain (by decide) hbraces)
  have hlone : IsLiteralText true "\x7d\\".toList := .plain (by decide) (.lone rfl)
  have hnames : IsNameText "3".toList ∧ IsNameText "x y".toList :=
    ⟨⟨by decide, by decide +kernel, by simp⟩, ⟨by decide, by decide +kernel, by simp⟩⟩
  have hconstraint : IsConstraintText "a:\x7b2\x7d\\\x7db\x7bc\x7d".toList :=
    ⟨by decide, by decide +kernel, by decide +kernel⟩
  have h : IsPrintable tokens := by
    refine ⟨by decide, ?_, ?_⟩
    · intro token htoken
      simp only [tokens, List.dropLast_cons_cons, List.dropLast_singleton, List.mem_cons, List.not_mem_nil, or_false] at htoken
      rcases htoken with rfl | rfl | rfl
      · exact ⟨by decide, hquantifier⟩
      · exact ⟨hnames.1, hconstraint⟩
      · exact ⟨hnames.2, by decide +kernel⟩
    · intro token htoken
      obtain rfl := Option.some.inj htoken
      exact ⟨by decide, hlone⟩
  exact ⟨h, rfl, tokenize_print h⟩

end UriRouting.Template
