/-
The configured constraint of bare placeholders. A template may leave it to the settings, or write it out in each of its bare
placeholders. What is written out is expanded, and what the settings say is not: so a template that writes the constraint out is
compiled as one that leaves it to settings with the expansion for a constraint. Both ways are the same where the constraint has
nothing to expand.

Results:
- `assemble_writeOut`: the expression of a template with the constraint written out.
- `bare_is_configured`: when the two ways come to the same, and what they come to otherwise.
- `shorthand_not_configured`: a constraint that is a shorthand, which the settings take to the letter.
-/
import UriRouting.Proofs.Pattern.Failing
import UriRouting.Proofs.Template.Settled
import UriRouting.Proofs.Template.WrittenOut

namespace UriRouting.Pattern

open Regex Results Template

/-- both are refused, or both come to one expression and to the same answer for every path -/
def IsAlike (r r' : Except Error Pattern) : Prop :=
  ((∃ p, r = .ok p) ↔ ∃ q, r' = .ok q) ∧
    ∀ p q, r = .ok p → r' = .ok q → p.expression = q.expression ∧ ∀ path, p.parameters? path = q.parameters? path

/-! ## Expressions -/

theorem names_writeOut (d : Text) (tokens : List Token) :
    Template.names (tokens.map (Token.writeOut d)) = Template.names tokens := by
  induction tokens with
  | nil => rfl
  | cons token tokens ih =>
    cases token with
    | literal t => exact ih
    | parameter n constraint => cases constraint <;> exact congrArg (n :: ·) ih

/-- **A constraint that is written out is expanded** in the groups of bare placeholders -/
theorem assemble_writeOut {config : Config} {d k : Text} (hk : expand d = .ok k) (seen : List Text) (tokens : List Token) :
    assemble config seen (tokens.map (Token.writeOut d)) = assemble { config with bareConstraint := k } seen tokens := by
  induction tokens generalizing seen with
  | nil => rfl
  | cons token tokens ih =>
    rw [List.map_cons]
    cases token with
    | literal t => rw [show (Token.literal t).writeOut d = .literal t from rfl, assemble, assemble, ih]
    | parameter n constraint =>
      obtain ⟨own, hwrite, hbody⟩ : ∃ own, (Token.parameter n constraint).writeOut d = .parameter n own ∧
          body config own = body { config with bareConstraint := k } constraint := by
        cases constraint with
        | none => exact ⟨some d, rfl, body_some_ok_iff.2 hk⟩
        | some own => exact ⟨some own, rfl, rfl⟩
      simp only [hwrite, assemble, hbody, ih]

/-- two templates with one assembled expression and the same names are alike -/
theorem isAlike_of_assemble {c d : Config} {s t : Text} {ss ts : List Token} (hs : tokenize s = .ok ss)
    (ht : tokenize t = .ok ts) (h : assemble c [] ss = assemble d [] ts) (hnames : Template.names ss = Template.names ts)
    (hslash : c.trailingSlash = d.trailingSlash) : IsAlike (compile c s) (compile d t) := by
  obtain ⟨haccepted, hcompiled⟩ := compile_of_assemble_eq hs ht h hslash
  refine ⟨haccepted, fun p q hp hq => ?_⟩
  obtain ⟨hexpression, hprogram, hpnames, hqnames⟩ := hcompiled p q hp hq
  refine ⟨hexpression, fun path => ?_⟩
  rw [parameters?, parameters?, hprogram, hpnames, hqnames, hnames]

/-- a template without tokens is refused, and so is what comes of it -/
theorem isAlike_of_refused {c d : Config} {s t : Text} (hs : ¬∃ ss, tokenize s = .ok ss) (ht : ¬∃ ts, tokenize t = .ok ts) :
    IsAlike (compile c s) (compile d t) := by
  have hrefused : ∀ {c : Config} {t : Text}, (¬∃ ts, tokenize t = .ok ts) → ∀ p, compile c t ≠ .ok p := by
    intro c t ht p hp
    obtain ⟨tokens, -, -, htokens, -⟩ := compile_eq_ok_iff.1 hp
    exact ht ⟨tokens, htokens⟩
  exact ⟨iff_of_false (fun ⟨p, hp⟩ => hrefused hs p hp) (fun ⟨q, hq⟩ => hrefused ht q hq),
    fun p q hp => absurd hp (hrefused hs p)⟩

/-- some placeholder of the template has no constraint -/
def HasBare (t : Text) : Prop := ∃ tokens n, tokenize t = .ok tokens ∧ .parameter n none ∈ tokens

/-! ## Templates -/

variable {config : Config} {d : Text}

/-- **Written out or configured as its expansion**: a template with a constraint written out is compiled as with settings that
say what this expands to -/
theorem isAlike_of_expand (hd : IsConstraintText d) {k : Text} (hk : expand d = .ok k) (t : Text) :
    IsAlike (compile config (writeOut d t)) (compile { config with bareConstraint := k } t) := by
  by_cases ht : ∃ tokens, tokenize t = .ok tokens
  · obtain ⟨tokens, htokens⟩ := ht
    exact isAlike_of_assemble (tokenize_writeOut hd htokens) htokens (assemble_writeOut hk [] tokens)
      (names_writeOut d tokens) rfl
  · exact isAlike_of_refused (fun h => ht ((exists_tokenize_writeOut hd t).1 h)) ht

/-- a template without bare placeholders is what it was -/
theorem isAlike_of_not_hasBare (hd : IsConstraintText d) {t : Text} (h : ¬HasBare t) :
    IsAlike (compile config (writeOut d t)) (compile config t) := by
  by_cases ht : ∃ tokens, tokenize t = .ok tokens
  · obtain ⟨tokens, htokens⟩ := ht
    have hsame : tokens.map (Token.writeOut d) = tokens := by
      conv_rhs => rw [← List.map_id tokens]
      refine List.map_congr_left fun token htoken => ?_
      match token, htoken with
      | .literal t, _ => rfl
      | .parameter n (some own), _ => rfl
      | .parameter n none, htoken => exact absurd ⟨tokens, n, htokens, htoken⟩ h
    have hwritten := tokenize_writeOut hd htokens
    rw [hsame] at hwritten
    exact isAlike_of_assemble hwritten htokens rfl rfl rfl
  · exact isAlike_of_refused (fun h => ht ((exists_tokenize_writeOut hd t).1 h)) ht

/-- a constraint that does not expand is refused where it is written out -/
theorem compile_writeOut_ne_ok (hd : IsConstraintText d) {f : BracketFault} (hf : expand d = .error f) {t : Text}
    (h : HasBare t) (p : Pattern) : compile config (writeOut d t) ≠ .ok p := by
  intro hp
  obtain ⟨tokens, n, htokens, hmem⟩ := h
  obtain ⟨written, source, -, hwritten, hsource, -⟩ := compile_eq_ok_iff.1 hp
  obtain rfl := Except.ok.inj ((tokenize_writeOut hd htokens).symm.trans hwritten)
  obtain ⟨b, hb⟩ := exists_body_of_assemble hsource (List.mem_map_of_mem (f := Token.writeOut d) hmem)
  have hexpanded := body_some_ok_iff.1 hb
  rw [hf] at hexpanded
  cases hexpanded

/-- **A bare placeholder has the configured constraint.** Let the template have it written out in every bare placeholder. If it
has nothing to expand, or the template no bare placeholder, both are accepted alike and give the same answer for every path. If
it expands to something, the template with it written out is compiled as the other is with settings that say that; and if it
does not expand, that template is refused, provided it has a bare placeholder. -/
theorem bare_is_configured (hd : IsConstraintText config.bareConstraint) (t : Text) :
    (IsSettled false config.bareConstraint ∨ ¬HasBare t →
      IsAlike (compile config (writeOut config.bareConstraint t)) (compile config t)) ∧
    (∀ k, expand config.bareConstraint = .ok k →
      IsAlike (compile config (writeOut config.bareConstraint t)) (compile { config with bareConstraint := k } t)) ∧
    ∀ f, expand config.bareConstraint = .error f → HasBare t →
      ∀ p, compile config (writeOut config.bareConstraint t) ≠ .ok p := by
  refine ⟨?_, fun k hk => isAlike_of_expand hd hk t, fun f hf hbare => compile_writeOut_ne_ok hd hf hbare⟩
  rintro (hsettled | hbare)
  · exact isAlike_of_expand hd (expand_eq_self_iff.2 hsettled) t
  · exact isAlike_of_not_hasBare hd hbare

/-- a constraint with nothing to expand, for names with a colon behind them and escaped braces, between quantifiers and
placeholders that have a constraint -/
theorem bare_is_configured_settled :
    let config := { Config.standard with bareConstraint := "(?:alpha:|[^/\\]:]\x7b1,3\x7d)".toList }
    let t := "/\x7bx\x7d\x7b2\x7d/\x7b y : \x7d-\x7bz: :digit:\x7b2\x7d\x7d\\\x7b\x7ba\\\x7db\x7d".toList
    let d := "(?:alpha:|[^/\\]:]\x7b1,3\x7d)"
    writeOut config.bareConstraint t =
      ("/\x7bx: " ++ d ++ "\x7d\x7b2\x7d/\x7b y : " ++ d ++ "\x7d-\x7bz: :digit:\x7b2\x7d\x7d\\\x7b\x7ba\\\x7db: " ++ d ++
        "\x7d").toList ∧
    IsSettled false config.bareConstraint ∧
    IsAlike (compile config (writeOut config.bareConstraint t)) (compile config t) := by
  intro config t d
  have hd : IsConstraintText config.bareConstraint := ⟨by decide, by decide +kernel, by decide +kernel⟩
  have hsettled : IsSettled false config.bareConstraint := by decide +kernel
  exact ⟨by decide +kernel, hsettled, (bare_is_configured hd t).1 (.inl hsettled)⟩

/-- where the two ways differ: a shorthand is expanded where it is written out, and taken to the letter by the settings -/
theorem shorthand_not_configured :
    let config := { Config.standard with bareConstraint := ":alpha:+".toList }
    let t := "/\x7bx\x7d".toList
    IsConstraintText config.bareConstraint ∧ writeOut config.bareConstraint t = "/\x7bx: :alpha:+\x7d".toList ∧
      answer config (writeOut config.bareConstraint t) "/abc".toList = .ok (some [(['x'], "abc".toList)]) ∧
      answer config t "/abc".toList = .ok none ∧
      ¬IsAlike (compile config (writeOut config.bareConstraint t)) (compile config t) := by
  intro config t
  have hwritten : answer config (writeOut config.bareConstraint t) "/abc".toList = .ok (some [(['x'], "abc".toList)]) := by
    rw [answer_eq_find?]
    decide +kernel
  have hbare : answer config t "/abc".toList = .ok none := by
    rw [answer_eq_find?]
    decide +kernel
  refine ⟨⟨by decide, by decide +kernel, by decide +kernel⟩, by decide +kernel, hwritten, hbare, fun halike => ?_⟩
  obtain ⟨p, hp⟩ := exists_of_isOk (r := compile config (writeOut config.bareConstraint t)) (by decide +kernel)
  obtain ⟨q, hq⟩ := exists_of_isOk (r := compile config t) (by decide +kernel)
  have hsame := (halike.2 p q hp hq).2 "/abc".toList
  rw [answer, hp] at hwritten
  rw [answer, hq] at hbare
  have hcontra := hwritten.symm.trans (hsame.trans hbare)
  cases hcontra

end UriRouting.Pattern
