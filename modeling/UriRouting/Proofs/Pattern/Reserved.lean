/-
Where an expression spells a group name. The names of the placeholders' groups start with a mark of their own. If a template does
not have the mark, nothing but the groups of its placeholders has it in the expression: literals and constraints are stretches
of the template, neither runs into the other, and expanding a constraint makes no mark.

- `eq_or_suffix_of_group`: in a group the mark starts its name, and nothing else.
- `marked_of_assemble`, `marked_of_compile`: wherever the mark stands, a placeholder's group name does, and its group behind it.
-/
import UriRouting.Proofs.Pattern.Wrapping
import UriRouting.Proofs.Pattern.Compiled
import UriRouting.Proofs.Template.Joining
import UriRouting.Proofs.Template.Words

namespace UriRouting.Pattern

open Template Results

/-- what the names of all placeholders' groups start with -/
def mark : Text := "_perch_p".toList

variable {s u v : Text}

/-! ## Where a mark may start -/

/-- what follows a text does not complete a mark in it, if it starts with another character -/
theorem prefix_of_marked (hv : ∀ c ∈ v.head?, c ∉ mark) (h : mark <+: u ++ v) : mark <+: u := by
  obtain ⟨behind, hbehind⟩ := h
  rcases List.append_eq_append_iff.1 hbehind with ⟨more, hmore, -⟩ | ⟨more, hmore, hv'⟩
  · exact ⟨more, hmore.symm⟩
  · cases more with
    | nil => exact ⟨[], hmore.trans (List.append_nil u) ▸ List.append_nil _⟩
    | cons c more =>
      have hc : c ∈ v.head? := by rw [hv']; rfl
      exact absurd (hmore ▸ List.mem_append_right u List.mem_cons_self) (hv c hc)

theorem not_mem_mark_head {c : Char} (hc : c ∉ mark) (t : Text) : ∀ d ∈ (c :: t).head?, d ∉ mark :=
  fun _ hd => Option.some.inj hd ▸ hc

/-- a place in two texts is in the second one, or before it -/
theorem suffix_append_cases (hs : s <:+ u ++ v) : s <:+ v ∨ ∃ front, front ≠ [] ∧ front <:+ u ∧ s = front ++ v := by
  obtain ⟨k, hk⟩ := hs
  rcases List.append_eq_append_iff.1 hk with ⟨front, hu, rfl⟩ | ⟨more, -, hv⟩
  · cases front with
    | nil => exact .inl List.suffix_rfl
    | cons c front => exact .inr ⟨c :: front, List.cons_ne_nil c front, ⟨k, hu.symm⟩, rfl⟩
  · exact .inl ⟨more, hv.symm⟩

/-- no mark starts in a text without an underscore -/
theorem suffix_of_no_underscore (hu : '_' ∉ u) (hs : s <:+ u ++ v) (hmark : mark <+: s) : s <:+ v := by
  rcases suffix_append_cases hs with hv | ⟨front, hne, hfront, rfl⟩
  · exact hv
  · obtain ⟨c, more, rfl⟩ := List.exists_cons_of_ne_nil hne
    obtain ⟨rfl, -⟩ := List.cons_prefix_cons.1 hmark
    exact absurd (hfront.mem List.mem_cons_self) hu

/-- no mark starts in a text that does not have one, and does not run into one -/
theorem suffix_of_unmarked (hu : ¬mark <:+: u) (hv : ∀ c ∈ v.head?, c ∉ mark) (hs : s <:+ u ++ v) (hmark : mark <+: s) :
    s <:+ v := by
  rcases suffix_append_cases hs with hv' | ⟨front, -, hfront, rfl⟩
  · exact hv'
  · exact absurd ((prefix_of_marked hv hmark).isInfix.trans hfront.isInfix) hu

/-! ## Groups -/

/-- a group name has one mark, at its start -/
theorem groupName_eq (i : ℕ) : ∃ behind, groupName i = '_' :: behind ∧ ¬mark <:+: behind := by
  refine ⟨"perch_p".toList ++ Decimal.digits i, rfl, fun hfound => ?_⟩
  have hdigits : '_' ∉ Decimal.digits i := by
    intro h
    obtain ⟨j, hj, hc⟩ := Decimal.exists_digit_of_mem_digits h
    exact absurd hc ((by decide : ∀ j < 10, '_' ≠ Decimal.digit j) j hj)
  -- the mark has two underscores
  have hcount := hfound.sublist.count_le '_'
  rw [List.count_append, List.count_eq_zero_of_not_mem hdigits] at hcount
  exact absurd hcount (by decide)

/-- **In a group the mark starts its name**, and nothing else -/
theorem eq_or_suffix_of_group {i : ℕ} {b rest : Text} (hb : ¬mark <:+: b) (hs : s <:+ group i b ++ rest) (hmark : mark <+: s) :
    s = groupName i ++ '>' :: (b ++ ')' :: rest) ∨ s <:+ rest := by
  obtain ⟨behind, hname, hbehind⟩ := groupName_eq i
  have hgroup : group i b ++ rest = "(?P<".toList ++ '_' :: (behind ++ '>' :: (b ++ ')' :: rest)) := by
    simp [group, hname]
  rw [hgroup] at hs
  rcases List.suffix_cons_iff.1 (suffix_of_no_underscore (by decide) hs hmark) with h | h
  · exact .inl (by rw [h, hname, List.cons_append])
  · have hclosed := suffix_of_unmarked hbehind (not_mem_mark_head (by decide) _) h hmark
    have hbody := suffix_of_no_underscore (u := ['>']) (by decide) hclosed hmark
    have hend := suffix_of_unmarked hb (not_mem_mark_head (by decide) _) hbody hmark
    exact .inr (suffix_of_no_underscore (u := [')']) (by decide) hend hmark)

/-- what a placeholder's group holds has no mark -/
theorem unmarked_of_body {config : Config} (hbare : ¬mark <:+: config.bareConstraint) {constraint : Option Text}
    (hplain : ∀ c ∈ constraint, ¬mark <:+: c) {b : Text} (hb : body config constraint = .ok b) : ¬mark <:+: b := by
  cases constraint with
  | none => exact Except.ok.inj hb ▸ hbare
  | some c =>
    have hsign : ∀ c ∈ mark, c ∉ signs := Text.forall_mem_of_all (by decide)
    exact fun h => hplain c rfl (infix_of_expand (body_some_ok_iff.1 hb) hsign h)

/-! ## Expressions -/

/-- the mark stands at the name of the group of a placeholder, counted from an index on -/
def IsNaming (config : Config) (index : ℕ) (tokens : List Token) (s : Text) : Prop :=
  ∃ i n constraint b rest, (placeholders tokens)[i]? = some (.parameter n constraint) ∧ body config constraint = .ok b ∧
    s = groupName (index + i) ++ '>' :: (b ++ ')' :: rest)

/-- what is assembled starts with no letter of a mark, unless a literal comes first -/
theorem head?_assemble {config : Config} {seen : List Text} {tokens : List Token} {source : Text}
    (h : assemble config seen tokens = .ok source) (hhead : ∀ t ∈ tokens.head?, ¬t.IsLiteral) :
    ∀ c ∈ source.head?, c ∉ mark := by
  cases tokens with
  | nil =>
    obtain rfl := Except.ok.inj h
    intro c hc
    cases hc
  | cons token tokens =>
    cases token with
    | literal t => exact absurd trivial (hhead _ rfl)
    | parameter n constraint =>
      obtain ⟨-, b, rest, -, -, rfl⟩ := assemble_parameter_ok h
      intro c hc
      obtain rfl : '(' = c := Option.some.inj hc
      decide

/-- **Wherever the mark stands, a placeholder's group does**, in what is assembled of tokens without it -/
theorem marked_of_assemble {config : Config} (hbare : ¬mark <:+: config.bareConstraint) {seen : List Text} {tokens : List Token}
    {source : Text} (h : assemble config seen tokens = .ok source) (hapart : AreApart tokens)
    (hplain : ∀ token ∈ tokens, ∀ u, token.source? = some u → ¬mark <:+: u) (hs : s <:+ source) (hmark : mark <+: s) :
    IsNaming config seen.length tokens s := by
  induction tokens generalizing seen source with
  | nil =>
    obtain rfl := Except.ok.inj h
    rw [List.suffix_nil.1 hs] at hmark
    exact absurd (List.prefix_nil.1 hmark) (by decide)
  | cons token tokens ih =>
    obtain ⟨hhead, hrestApart⟩ := List.isChain_cons.1 hapart
    obtain ⟨htoken, hrestPlain⟩ := List.forall_mem_cons.1 hplain
    cases token with
    | literal t =>
      obtain ⟨rest, hrest, rfl⟩ := map_eq_ok_iff.1 h
      have hnext := head?_assemble hrest fun t ht hliteral => hhead t ht ⟨trivial, hliteral⟩
      exact ih hrest hrestApart hrestPlain (suffix_of_unmarked (htoken t rfl) hnext hs hmark)
    | parameter n constraint =>
      obtain ⟨-, b, rest, hb, hrest, rfl⟩ := assemble_parameter_ok h
      rcases eq_or_suffix_of_group (unmarked_of_body hbare htoken hb) hs hmark with hown | hlater
      · exact ⟨0, n, constraint, b, rest, rfl, hb, hown⟩
      · obtain ⟨i, n', constraint', b', rest', hi, hb', hs'⟩ := ih hrest hrestApart hrestPlain hlater
        rw [List.length_append, List.length_singleton, Nat.add_assoc, Nat.add_comm 1] at hs'
        exact ⟨i + 1, n', constraint', b', rest', hi, hb', hs'⟩

/-- **Wherever the mark stands, a placeholder's group does**, in the expression of a template without it -/
theorem marked_of_compile {config : Config} (hbare : ¬mark <:+: config.bareConstraint) {template : Text}
    (hplain : ¬mark <:+: template) {p : Pattern} (hp : compile config template = .ok p) (hs : s <:+ p.expression)
    (hmark : mark <+: s) : IsNaming config 0 p.tokens s := by
  obtain ⟨tokens, source, program, htokens, hsource, -, rfl⟩ := compile_eq_ok_iff.1 hp
  obtain ⟨hapart, hstretches⟩ := infix_of_tokenize htokens
  have hunmarked : ∀ token ∈ tokens, ∀ u, token.source? = some u → ¬mark <:+: u :=
    fun token htoken u hu hfound => hplain (hfound.trans (hstretches token htoken u hu))
  have hflags : '_' ∉ (splitFlags source).1 := by
    rcases splitFlags_cases source with hnone | ⟨letters, rest, -, hletters, -, hsplit⟩
    · rw [hnone]
      exact List.not_mem_nil
    · rw [hsplit]
      simp only [List.mem_cons, List.mem_append, List.not_mem_nil, or_false, not_or]
      exact ⟨by decide, by decide, fun h => absurd (hletters _ h) (by decide), by decide⟩
  have hwrap : wrap config.trailingSlash source =
      (splitFlags source).1 ++ ("(?:".toList ++ ((splitFlags source).2 ++ ')' :: slashTail config.trailingSlash)) := by
    simp only [wrap, slashTail, List.append_assoc]
  have htail : '_' ∉ ')' :: slashTail config.trailingSlash := by
    cases config.trailingSlash <;> decide
  rw [hwrap] at hs
  have hinner := suffix_of_no_underscore (by decide) (suffix_of_no_underscore hflags hs hmark) hmark
  rcases suffix_append_cases hinner with hs | ⟨front, -, hfront, rfl⟩
  · exact absurd (hs.mem (hmark.mem List.mem_cons_self)) htail
  · have hsource' : front <:+ source := hfront.trans ⟨(splitFlags source).1, splitFlags_append source⟩
    have hmark' : mark <+: front := prefix_of_marked (not_mem_mark_head (by decide) _) hmark
    obtain ⟨i, n, constraint, b, rest, hi, hb, rfl⟩ := marked_of_assemble hbare hsource hapart hunmarked hsource' hmark'
    exact ⟨i, n, constraint, b, rest ++ ')' :: slashTail config.trailingSlash, hi, hb, by simp⟩

end UriRouting.Pattern
