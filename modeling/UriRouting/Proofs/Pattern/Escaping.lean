/-
What reading a template does to its escape pairs. Literals, and constraints and names on their inside, keep their pairs. Where a
name or a constraint ends in front of a colon or a blank that is escaped, the pair is torn: the backslash stays, and the
character is cut off. Such a constraint escapes the parenthesis that closes its group.

Results:
- `isPair_group_iff`: the closing parenthesis of a group is escaped when what the group holds dangles.
- `exists_accounts`: what becomes of each pair, for every template that has tokens.
- `blank_and_colon_torn`: a constraint and a name that are torn.
-/
import UriRouting.Proofs.Pattern.Failing
import UriRouting.Proofs.Template.Parts

namespace UriRouting.Pattern

open Template Results

/-- every pair stays together in a part, and no name or constraint ends in the middle of one -/
structure KeepsPairs (t : Text) (tokens : List Token) (stretches : List (List Segment)) : Prop where
  pairs : ∀ before c after, IsPair t before c after → ∃ p, HasPart stretches tokens p ∧ p.Keeps before c after
  whole : ∀ token ∈ tokens, ∀ role u, token.HasText role u → role ≠ .literal → dangles u = false

/-- **The parenthesis that closes a group is escaped** when what the group holds dangles -/
theorem isPair_group_iff (index : ℕ) (b : Text) : (∃ before, IsPair (group index b) before ')' []) ↔ dangles b = true := by
  have hfront : dangles ("(?P<".toList ++ groupName index ++ ['>']) = false := dangles_append_of_ne (by decide) _
  have hgroup : group index b = "(?P<".toList ++ groupName index ++ ['>'] ++ (b ++ [')']) := by
    simp only [group, List.append_assoc, List.cons_append, List.nil_append]
  rw [hgroup]
  simp only [isPair_append_iff hfront]
  constructor
  · rintro ⟨before, ⟨a, -, ha⟩ | ⟨u, ⟨hwhole, haligned⟩, -⟩⟩
    · simp at ha
    · have hsplit : b ++ [')'] = u ++ ['\\'] ++ [')'] := by rw [hwhole, List.append_assoc]; rfl
      rw [List.append_cancel_right hsplit]
      exact dangles_append_backslash haligned
  · intro h
    obtain ⟨u, rfl, hu⟩ := exists_of_dangles h
    exact ⟨_, .inr ⟨u, ⟨by rw [List.append_assoc]; rfl, hu⟩, rfl⟩⟩

/-- what becomes of the pairs of a template when it is read as the tokens of its stretches -/
structure AccountsForPairs (t : Text) (tokens : List Token) (stretches : List (List Segment)) : Prop where
  cut : CutBy t (segments t) tokens stretches
  /-- the pairs are those that the scan meets, at its escapes and between braces -/
  met : ∀ before c after, IsPair t before c after ↔ Meets (segments t) before c after
  /-- the parts are the literals, names and constraints of the tokens -/
  texts : ∀ role u, (∃ token ∈ tokens, token.HasText role u) ↔ ∃ p, HasPart stretches tokens p ∧ p.role = role ∧ p.text = u
  whole : ∀ p, HasPart stretches tokens p → p.whole = t
  /-- the backslash of each pair stands in one part, with the character or in front of a character cut off there -/
  pairs : ∀ before c after, IsPair t before c after → ∃ p, HasPart stretches tokens p ∧
    (∀ q, HasPart stretches tokens q → q.Holds before → q = p) ∧
    (p.Keeps before c after ∨ p.Tears before c after ∧ p.role.Cuts c)
  /-- a part dangles when it is torn, or is the literal that a template ends with that dangles itself -/
  dangling : ∀ p, HasPart stretches tokens p →
    (dangles p.text = true ↔ p.IsTorn ∨ p.role = .literal ∧ p.after = [] ∧ dangles t = true)
  /-- a constraint escapes the parenthesis behind it when it is torn -/
  parenthesis : ∀ p, HasPart stretches tokens p → p.role = .constraint → ∀ config index b,
    body config (some p.text) = .ok b → ((∃ before, IsPair (group index b) before ')' []) ↔ p.IsTorn)

variable {t : Text} {tokens : List Token} {stretches : List (List Segment)}

/-- **Stretches of a template account for its pairs** in the tokens that they make -/
theorem accountsForPairs_of_makes (hflatten : stretches.flatten = segments t) (hmakes : List.Forall₂ Makes stretches tokens)
    (hapart : AreApart tokens) : AccountsForPairs t tokens stretches := by
  have hscan : Scans t stretches.flatten := hflatten ▸ scans_segments t
  have hwhole : ∀ p, HasPart stretches tokens p → p.whole = t := fun p hp => hp.whole_eq.trans hscan.text_eq
  have hdangling : ∀ p, HasPart stretches tokens p →
      (dangles p.text = true ↔ p.IsTorn ∨ p.role = .literal ∧ p.after = [] ∧ dangles t = true) := by
    intro p hp
    have hiff := Part.dangles_iff (hp.aligned hscan)
    rw [hwhole p hp] at hiff
    refine ⟨fun h => ?_, fun h => hiff.2 (h.imp_right And.right)⟩
    rcases hiff.1 h with htorn | ⟨hafter, hend⟩
    · exact .inl htorn
    · -- behind a name or a constraint comes at least the closing brace
      rcases hp.after_cases hscan h with ⟨hrole, -⟩ | ⟨c, rest, hcons, -⟩
      · exact .inr ⟨hrole, hafter, hend⟩
      · rw [hafter] at hcons
        cases hcons
  refine ⟨⟨hflatten, ?_, hmakes, hapart⟩, ?_, fun role u => hasText_iff hmakes, hwhole, ?_, hdangling, ?_⟩
  · rw [← hscan.text_eq, List.flatten_eq_flatMap, List.flatMap_assoc]
    rfl
  · intro before c after
    rw [← hflatten]
    exact isPair_iff_of_scans hscan (unclosed_not_mem hmakes)
  · intro before c after hpair
    obtain ⟨p, hp, hholds⟩ := exists_part hmakes (hscan.text_eq.trans hpair.whole)
    refine ⟨p, hp, fun q hq hq' => hq.unique hp hq' hholds, ?_⟩
    refine (Part.keeps_or_tears (hp.aligned hscan) (hwhole p hp ▸ hpair) hholds).imp_right fun htears => ⟨htears, ?_⟩
    have htorn : p.IsTorn := ⟨before, c, after, hwhole p hp ▸ hpair, htears⟩
    rcases hp.after_cases hscan ((hdangling p hp).2 (.inl htorn)) with ⟨-, hafter⟩ | ⟨d, rest, hafter, hcuts⟩
    · cases htears.2.trans hafter
    · obtain ⟨rfl, -⟩ := List.cons.inj (htears.2.trans hafter)
      exact hcuts
  · intro p hp hrole config index b hb
    rw [isPair_group_iff, dangles_expand (body_some_ok_iff.1 hb), hdangling p hp, hrole]
    simp

/-- **Where neither a colon nor a blank is escaped all pairs are kept** -/
theorem AccountsForPairs.keepsPairs (h : AccountsForPairs t tokens stretches)
    (hplain : ∀ before c after, IsPair t before c after → c ≠ ':' ∧ isBlank c = false) : KeepsPairs t tokens stretches := by
  have hcuts : ∀ before c after, IsPair t before c after → ∀ role : Role, ¬role.Cuts c := by
    intro before c after hpair role h
    obtain ⟨hcolon, hblank⟩ := hplain before c after hpair
    rcases Role.eq_or_isBlank_of_cuts h with rfl | h
    · exact hcolon rfl
    · rw [hblank] at h
      cases h
  constructor
  · intro before c after hpair
    obtain ⟨p, hp, -, hkept⟩ := h.pairs before c after hpair
    exact ⟨p, hp, hkept.resolve_right fun htorn => hcuts before c after hpair p.role htorn.2⟩
  · intro token htoken role u hu hrole
    obtain ⟨p, hp, rfl, rfl⟩ := (h.texts role u).1 ⟨token, htoken, hu⟩
    by_contra hdangles
    have hdangles := Bool.eq_true_of_not_eq_false hdangles
    have hne : p.text.length ≠ 0 := fun hnil => by
      rw [List.length_eq_zero_iff.1 hnil] at hdangles
      cases hdangles
    rcases (h.dangling p hp).1 hdangles with ⟨before, c, after, hpair, htears⟩ | ⟨hliteral, -⟩
    · -- the part that is torn is the one that the pair begins in
      rw [h.whole p hp] at hpair
      obtain ⟨q, hq, hunique, hkept⟩ := h.pairs before c after hpair
      have hlength := htears.length_eq
      obtain rfl := hunique p hp ⟨by omega, by omega⟩
      rcases hkept with hkeeps | ⟨-, hcut⟩
      · have := hkeeps.length_lt
        omega
      · exact hcuts before c after hpair p.role hcut
    · exact hrole hliteral

/-- **Reading a template accounts for all its escape pairs.** Each is kept in a literal, a name or a constraint, or torn at the
end of a name or a constraint, by the cut at the colon or by trimming; and just the constraints that are torn escape the
parenthesis behind them. With neither a colon nor a blank escaped, all pairs are kept. -/
theorem exists_accounts (h : tokenize t = .ok tokens) : ∃ stretches, AccountsForPairs t tokens stretches ∧
    ((∀ before c after, IsPair t before c after → c ≠ ':' ∧ isBlank c = false) → KeepsPairs t tokens stretches) := by
  obtain ⟨stretches, hflatten, hmakes, hapart⟩ := gather_ok_iff.1 h
  have haccounts := accountsForPairs_of_makes hflatten hmakes hapart
  exact ⟨stretches, haccounts, haccounts.keepsPairs⟩

/-- escapes in a literal, a colon escaped behind a name, a blank escaped behind a constraint and in front of a colon, escapes
within constraints, and a backslash at the end; and a template that keeps its pairs -/
theorem exists_accounts_mixed :
    let t := "\\\x7b/\x7ba\\:b\\\x7d c: d\\ \x7d\x7bx\\ : \\d+\x7d\\".toList
    let tokens : List Token := [.literal "\\\x7b/".toList, .parameter "a\\".toList (some "b\\\x7d c: d\\".toList),
      .parameter "x\\".toList (some "\\d+".toList), .literal "\\".toList]
    let plain := "\\\x7b/\x7bx\\\x7d\x7d".toList
    let plainTokens : List Token := [.literal "\\\x7b/".toList, .parameter "x\\\x7d".toList none]
    (tokenize t = .ok tokens ∧ ∃ stretches, AccountsForPairs t tokens stretches) ∧
      tokenize plain = .ok plainTokens ∧ ∃ stretches, KeepsPairs plain plainTokens stretches := by
  intro t tokens plain plainTokens
  have h : tokenize t = .ok tokens := by decide +kernel
  have hplain : tokenize plain = .ok plainTokens := by decide +kernel
  obtain ⟨stretches, haccounts, -⟩ := exists_accounts h
  obtain ⟨plainStretches, -, hkeeps⟩ := exists_accounts hplain
  refine ⟨⟨h, stretches, haccounts⟩, hplain, plainStretches, hkeeps ?_⟩
  rintro before c after ⟨hwhole, -⟩
  have hall : ∀ d ∈ plain, d ≠ ':' ∧ isBlank d = false := Text.forall_mem_of_all (by decide)
  exact hall c (hwhole ▸ by simp)

/-- pairs that are torn: a blank at the end of a constraint, and a colon behind a name. With the parenthesis of its group
escaped the constraint reaches up to one of the template -/
theorem blank_and_colon_torn :
    let blank := "\x7bx: a\\ \x7d".toList
    let colon := "\x7ba\\:b\x7d".toList
    (tokenize blank = .ok [.parameter ['x'] (some "a\\".toList)] ∧ IsPair blank "\x7bx: a".toList ' ' "\x7d".toList ∧
      (∀ role u, (Token.parameter ['x'] (some "a\\".toList)).HasText role u → ∀ b a, ¬IsPair u b ' ' a)) ∧
    (tokenize colon = .ok [.parameter "a\\".toList (some ['b'])] ∧ IsPair colon "\x7ba".toList ':' "b\x7d".toList ∧
      (∀ role u, (Token.parameter "a\\".toList (some ['b'])).HasText role u → ∀ b a, ¬IsPair u b ':' a)) ∧
    dangles "a\\".toList = true ∧ (∃ before, IsPair (group 0 "a\\".toList) before ')' []) ∧
    answer Config.standard (blank ++ "/b)".toList) "a)/b".toList = .ok (some [(['x'], "a)/b".toList)]) := by
  intro blank colon
  have hmem : ∀ {u b a : Text} {c : Char}, c ∉ u → ¬IsPair u b c a := by
    rintro u b a c hc ⟨rfl, -⟩
    simp at hc
  refine ⟨⟨by decide +kernel, ⟨rfl, rfl⟩, ?_⟩, ⟨by decide +kernel, ⟨rfl, rfl⟩, ?_⟩, rfl, ?_, ?_⟩
  · intro role u hu b a
    cases hu <;> exact hmem (by decide)
  · intro role u hu b a
    cases hu <;> exact hmem (by decide)
  · exact (isPair_group_iff 0 _).2 rfl
  · rw [answer_eq_find?]
    decide +kernel

end UriRouting.Pattern
