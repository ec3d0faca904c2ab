/-
Where the words of an expression come from. The literals of a template and the constraints of its placeholders are stretches of
it, and a constraint that is expanded is copied but for the shorthands, and for the signs that keep it a bracket expression. So
a word that starts with an underscore and holds no such sign is in an expansion only if the template has it.

Results:
- `rewritten_of_expandFrom`: what is written for a constraint, stretch by stretch.
- `infix_of_expand`: such a word of an expansion is a word of the constraint.
- `infix_of_tokenize`: literals and constraints are stretches of the template.
-/
import UriRouting.Proofs.Template.Expand
import UriRouting.Proofs.Template.Segmentation

namespace UriRouting.Template

open Results

/-! ## Expansions -/

/-- the signs that an expansion starts what it writes with -/
def signs : Text := "([\\0".toList

/-- what an expansion may write in place of a stretch of its constraint -/
structure IsWritten (chunk : Text) : Prop where
  sign : ∃ c more, chunk = c :: more ∧ c ∈ signs
  word : '_' ∉ chunk

/-- the second text is the first one, with stretches copied or written anew -/
inductive Rewritten : Text → Text → Prop
  | nil : Rewritten [] []
  | copied (c : Char) (n : ℕ) {rest x : Text} (h : Rewritten (rest.drop n) x) : Rewritten (c :: rest) (c :: rest.take n ++ x)
  | written (c : Char) (n : ℕ) {rest x chunk : Text} (hchunk : IsWritten chunk) (h : Rewritten (rest.drop n) x) :
    Rewritten (c :: rest) (chunk ++ x)

theorem isWritten_cons {c : Char} {more : Text} (hc : c ∈ signs) (hword : '_' ∉ c :: more) : IsWritten (c :: more) :=
  ⟨⟨c, more, rfl, hc⟩, hword⟩

theorem isWritten_bracketed (k : CharClass) : IsWritten ('[' :: k.members ++ [']']) :=
  isWritten_cons (by decide) (by cases k <;> decide)

theorem isWritten_memberText (rest : Text) (k : CharClass) (length : ℕ) : IsWritten (memberText rest k length) := by
  unfold memberText
  split <;> cases k <;> exact isWritten_cons (by decide) (by decide)

theorem isWritten_opening (rest : Text) : IsWritten ('[' :: (opening rest).2) := by
  refine isWritten_cons (by decide) ?_
  unfold opening
  split <;> decide

/-- **What an expansion writes** -/
theorem rewritten_of_expandFrom {place : Place} {position : ℕ} {t x : Text} (h : expandFrom place position t = .ok x) :
    Rewritten t x := by
  fun_induction expandFrom place position t generalizing x with
  | case1 position => exact Except.ok.inj h ▸ .nil
  | case2 position opened => cases h
  | case3 place position rest ih =>
    obtain ⟨y, hy, rfl⟩ := ok_of_emit h
    exact .copied '\\' 1 (ih hy)
  | case4 position c rest hc hopener ih =>
    obtain ⟨y, hy, rfl⟩ := ok_of_emit h
    exact .written c 2 (isWritten_cons (by decide) (by decide)) (ih hy)
  | case5 position rest n written ho _ _ ih =>
    obtain ⟨y, hy, rfl⟩ := ok_of_emit h
    have hwritten := isWritten_opening rest
    rw [ho] at hwritten
    exact .written '[' n hwritten (ih hy)
  | case6 position c rest hc hopener hbracket k hk n =>
    rename_i ih
    obtain ⟨y, hy, rfl⟩ := ok_of_emit h
    exact .written c n (isWritten_bracketed k) (ih hy)
  | case7 position c rest hc hopener hbracket hk ih =>
    obtain ⟨y, hy, rfl⟩ := ok_of_emit h
    exact .copied c 0 (ih hy)
  | case8 position rest opened _ ih =>
    obtain ⟨y, hy, rfl⟩ := ok_of_emit h
    exact .copied ']' 0 (ih hy)
  | case9 position c rest hc opened hclose k length hk n dash m =>
    rename_i ih
    obtain ⟨y, hy, rfl⟩ := ok_of_emit h
    exact .written c m (isWritten_memberText rest k length) (ih hy)
  | case10 => cases h
  | case11 position c rest hc opened hclose hk hopen written =>
    rename_i ih
    obtain ⟨y, hy, rfl⟩ := ok_of_emit h
    by_cases hdash : c = '-' ∧ (memberAt? rest).isSome = true
    · rw [show written = "\\-".toList from if_pos hdash]
      exact .written c 0 (isWritten_cons (by decide) (by decide)) (ih hy)
    · rw [show written = [c] from if_neg hdash]
      exact .copied c 0 (ih hy)

/-- what an expansion starts with is what its constraint starts with, up to the first sign -/
theorem prefix_of_rewritten {t x w : Text} (h : Rewritten t x) (hw : ∀ c ∈ w, c ∉ signs) (hstart : w <+: x) : w <+: t := by
  induction h generalizing w with
  | nil => exact hstart
  | @copied c n rest x h ih =>
    obtain ⟨behind, hbehind⟩ := hstart
    have hfront : c :: rest = c :: rest.take n ++ rest.drop n := by simp
    rw [hfront]
    rcases List.append_eq_append_iff.1 hbehind with ⟨more, hmore, -⟩ | ⟨more, rfl, hmore⟩
    · rw [hmore, List.append_assoc]
      exact List.prefix_append w _
    · refine (List.prefix_append_right_inj _).2 (ih (fun d hd => hw d (List.mem_append_right _ hd)) ?_)
      exact ⟨behind, hmore.symm⟩
  | @written c n rest x chunk hchunk h ih =>
    obtain ⟨d, more, rfl, hsign⟩ := hchunk.sign
    cases w with
    | nil => exact List.nil_prefix
    | cons e w =>
      obtain ⟨rfl, -⟩ := List.cons_prefix_cons.1 hstart
      exact absurd hsign (hw e List.mem_cons_self)

theorem infix_of_rewritten {t x w : Text} (h : Rewritten t x) (hw : ∀ c ∈ '_' :: w, c ∉ signs) (hfound : '_' :: w <:+: x) :
    '_' :: w <:+: t := by
  induction h with
  | nil => exact hfound
  | @copied c n rest x h ih =>
    have hfront : c :: rest = c :: rest.take n ++ rest.drop n := by simp
    rw [hfront, List.infix_append_iff]
    rcases List.infix_append_iff.1 hfound with hfirst | hlater | ⟨u, v, hsplit, hu, hv⟩
    · exact .inl hfirst
    · exact .inr (.inl (ih hlater))
    · refine .inr (.inr ⟨u, v, hsplit, hu, prefix_of_rewritten h (fun d hd => hw d ?_) hv⟩)
      exact hsplit ▸ List.mem_append_right u hd
  | @written c n rest x chunk hchunk h ih =>
    have hlater : '_' :: w <:+: x → '_' :: w <:+: c :: rest := fun hx =>
      (ih hx).trans ((List.drop_suffix n rest).trans (List.suffix_cons c rest)).isInfix
    rcases List.infix_append_iff.1 hfound with hfirst | hx | ⟨u, v, hsplit, hu, hv⟩
    · exact absurd (hfirst.mem List.mem_cons_self) hchunk.word
    · exact hlater hx
    · -- the underscore does not stand in what is written anew
      cases u with
      | nil => exact hlater (hsplit ▸ hv.isInfix)
      | cons d u =>
        obtain ⟨rfl, -⟩ := List.cons_eq_cons.1 hsplit
        exact absurd (hu.mem List.mem_cons_self) hchunk.word

/-- **A word of an expansion is a word of the constraint**, if it starts with an underscore and holds no sign -/
theorem infix_of_expand {t x w : Text} (h : expand t = .ok x) (hw : ∀ c ∈ '_' :: w, c ∉ signs) (hfound : '_' :: w <:+: x) :
    '_' :: w <:+: t :=
  infix_of_rewritten (rewritten_of_expandFrom h) hw hfound

/-! ## Tokens -/

/-- the text that a token puts into an expression, if it brings one -/
def Token.source? : Token → Option Text
  | literal t => some t
  | parameter _ constraint => constraint

theorem infix_of_trim (t : Text) : t.trim <:+: t := by
  have hfront := List.dropWhile_suffix (l := t) isBlank
  have hback := List.dropWhile_suffix (l := (t.dropWhile isBlank).reverse) isBlank
  rw [← List.reverse_prefix, List.reverse_reverse] at hback
  exact hback.isInfix.trans hfront.isInfix

/-- the text of a token stands in the stretch that makes the token -/
theorem infix_of_makes {stretch : List Segment} {token : Token} (h : Makes stretch token) {u : Text}
    (hu : token.source? = some u) : u <:+: stretch.flatMap Segment.text := by
  cases h with
  | literal hne hliteral => exact Option.some.inj hu ▸ List.infix_rfl
  | @parameter inner hquantifier hname =>
    have hcut := Text.cutAt_append ':' inner
    have hinner : inner <:+: [Segment.braces inner].flatMap Segment.text := ⟨['{'], ['}'], by simp [Segment.text]⟩
    obtain ⟨after, hafter, htrim⟩ := trim_of_constraintOf hu
    rw [hafter] at hcut
    have hsuffix : after <:+ inner := ⟨(inner.cutAt ':').1 ++ [':'], by rw [List.append_assoc]; exact hcut.symm⟩
    exact (htrim ▸ infix_of_trim after).trans (hsuffix.isInfix.trans hinner)

/-- **Literals and constraints are stretches of the template**, and no two literals are neighbours -/
theorem infix_of_tokenize {t : Text} {tokens : List Token} (h : tokenize t = .ok tokens) :
    AreApart tokens ∧ ∀ token ∈ tokens, ∀ u, token.source? = some u → u <:+: t := by
  obtain ⟨stretches, hflatten, hmakes, hapart⟩ := gather_ok_iff.1 h
  refine ⟨hapart, fun token htoken u hu => ?_⟩
  obtain ⟨i, hi, rfl⟩ := List.getElem_of_mem htoken
  have hi' : i < stretches.length := hmakes.length_eq ▸ hi
  have hstretch : stretches[i] <:+: segments t := hflatten ▸ List.infix_of_mem_flatten (List.getElem_mem hi')
  have hfound := hstretch.flatMap Segment.text
  rw [segments_text] at hfound
  exact (infix_of_makes (hmakes.get hi' hi) hu).trans hfound

end UriRouting.Template
