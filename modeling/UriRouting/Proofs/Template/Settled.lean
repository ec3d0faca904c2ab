/-
Constraints with nothing to expand. Such a text has no shorthand where the scan could meet one, outside brackets or inside, and
each of its brackets is closed and holds no other (`IsSettled`). An expansion is such a text: what it writes begins with a sign
that is in no shorthand, so no new one arises where something written meets something copied. And such a text is expanded as it
stands.

Results:
- `isSettled_of_expandFrom`: what an expansion comes to, from any place on.
- `expandFrom_of_isSettled`: a text with nothing to expand is copied.
- `expand_idempotent`: both together, for every constraint that expands.
-/
import UriRouting.Proofs.Template.Brackets
import UriRouting.Proofs.Template.Words

namespace UriRouting.Template

def Place.isWithin : Place → Bool
  | outside => false
  | within _ => true

theorem Place.eq_outside {place : Place} (h : place.isWithin = false) : place = .outside := by
  cases place with
  | outside => rfl
  | within opened => cases h

theorem Place.exists_within {place : Place} (h : place.isWithin = true) : ∃ opened, place = .within opened := by
  cases place with
  | outside => cases h
  | within opened => exact ⟨opened, rfl⟩

/-- no shorthand stands at the start -/
def IsPlainAt (t : Text) : Prop := ∀ k : CharClass, ¬k.spelling <+: t

/-- nothing in the text is a shorthand; its brackets are closed, and none stands inside another. With `inside`, the text begins
inside brackets -/
inductive IsSettled : (inside : Bool) → Text → Prop
  | nil : IsSettled false []
  | lone : IsSettled false ['\\']
  | escape {inside : Bool} (c : Char) {t : Text} (h : IsSettled inside t) : IsSettled inside ('\\' :: c :: t)
  | opener {t : Text} (h : IsSettled false t) : IsSettled false ('(' :: '?' :: ':' :: t)
  | char {c : Char} {t : Text} (hc : IsOpen c t) (hplain : IsPlainAt (c :: t)) (h : IsSettled false t) :
    IsSettled false (c :: t)
  | bracket {t : Text} (hcaret : t.head? ≠ some '^') (hclose : t.head? ≠ some ']') (h : IsSettled true t) :
    IsSettled false ('[' :: t)
  | negated {t : Text} (hclose : t.head? ≠ some ']') (h : IsSettled true t) : IsSettled false ('[' :: '^' :: t)
  | member {c : Char} {t : Text} (hc : c ∉ ['\\', '[', ']']) (hplain : IsPlainAt (c :: t)) (h : IsSettled true t) :
    IsSettled true (c :: t)
  | close {t : Text} (h : IsSettled false t) : IsSettled true (']' :: t)

/-! ## Shorthands and openings -/

theorem isPlainAt_iff {t : Text} : IsPlainAt t ↔ (CharClass.all.find? fun k => k.spelling.isPrefixOf t) = none := by
  have hall : ∀ k : CharClass, k ∈ CharClass.all := fun k => by cases k <;> decide
  rw [List.find?_eq_none]
  simp only [IsPlainAt, List.isPrefixOf_iff_prefix, hall, forall_const]

/-- a shorthand begins with a colon -/
theorem isPlainAt_of_ne {c : Char} (hc : c ≠ ':') (t : Text) : IsPlainAt (c :: t) := by
  intro k hprefix
  exact hc (List.cons_prefix_cons.1 hprefix).1.symm

theorem isPlainAt_of_memberAt? {t : Text} (h : memberAt? t = none) : IsPlainAt t := by
  rw [isPlainAt_iff]
  unfold memberAt? at h
  split at h
  · cases h
  · exact Option.map_eq_none_iff.1 h

theorem memberAt?_of_isPlainAt {c : Char} {t : Text} (hopen : c ≠ '[') (h : IsPlainAt (c :: t)) :
    memberAt? (c :: t) = none := by
  have hbracketed : (CharClass.all.find? fun k => k.bracketed.isPrefixOf (c :: t)) = none := by
    rw [List.find?_eq_none]
    intro k _ hprefix
    exact hopen (List.cons_prefix_cons.1 (List.isPrefixOf_iff_prefix.1 hprefix)).1.symm
  rw [memberAt?, hbracketed]
  exact Option.map_eq_none_iff.2 (isPlainAt_iff.1 h)

/-- where a text with nothing to expand goes on inside brackets, no shorthand stands there, in either spelling -/
theorem IsSettled.memberAt?_eq_none {t : Text} (h : IsSettled true t) : memberAt? t = none := by
  cases h with
  | escape c _ => exact Template.memberAt?_eq_none (by decide) (by decide) _
  | close _ => exact Template.memberAt?_eq_none (by decide) (by decide) _
  | member hc hplain _ => exact memberAt?_of_isPlainAt (ne_of_mem_of_not_mem (by decide) hc).symm hplain

theorem opening_of_head? {t : Text} (hcaret : t.head? ≠ some '^') (hclose : t.head? ≠ some ']') : opening t = (0, []) := by
  cases t with
  | nil => rfl
  | cons c t =>
    simp only [List.head?_cons, ne_eq, Option.some.injEq] at hcaret hclose
    simp [opening, hcaret, hclose]

theorem opening_negated {t : Text} (hclose : t.head? ≠ some ']') : opening ('^' :: t) = (1, "^".toList) := by
  rw [opening]
  rintro more rfl
  exact hclose rfl

/-! ## What an expansion comes to -/

variable {place : Place} {position : ℕ} {rest y : Text}

/-- what stands in an expansion at its start, behind a character that is copied, stands in the constraint -/
theorem prefix_of_copied (h : expandFrom place position rest = .ok y) {c : Char} {w : Text} (hw : ∀ d ∈ w, d ∉ signs)
    (hstart : w <+: c :: y) : w <+: c :: rest := by
  cases w with
  | nil => exact List.nil_prefix
  | cons d w =>
    obtain ⟨rfl, hmore⟩ := List.cons_prefix_cons.1 hstart
    have hrest := prefix_of_rewritten (rewritten_of_expandFrom h) (fun e he => hw e (List.mem_cons_of_mem d he)) hmore
    exact List.cons_prefix_cons.2 ⟨rfl, hrest⟩

theorem spelling_signs (k : CharClass) : ∀ d ∈ k.spelling, d ∉ signs := by
  cases k <;> exact Text.forall_mem_of_all (by decide)

/-- a character that is copied begins no shorthand in the expansion, if it begins none in the constraint -/
theorem isPlainAt_of_copied (h : expandFrom place position rest = .ok y) {c : Char} (hplain : IsPlainAt (c :: rest)) :
    IsPlainAt (c :: y) :=
  fun k hprefix => hplain k (prefix_of_copied h (spelling_signs k) hprefix)

/-- an expansion begins with a sign, or as its constraint does -/
theorem head?_of_expandFrom (h : expandFrom place position rest = .ok y) {c : Char} (hc : c ∉ signs)
    (hhead : rest.head? ≠ some c) : y.head? ≠ some c := by
  intro hy
  obtain ⟨more, rfl⟩ := List.head?_eq_some_iff.1 hy
  have hprefix := prefix_of_rewritten (rewritten_of_expandFrom h) (w := [c]) (by simpa using hc) (by simp)
  obtain ⟨behind, rfl⟩ := hprefix
  exact hhead rfl

theorem isOpen_of_copied (h : expandFrom place position rest = .ok y) {c : Char} (hc : IsOpen c rest) : IsOpen c y where
  escape := hc.escape
  bracket := hc.bracket
  opener := by
    rintro ⟨rfl, htake⟩
    have hprefix : ['?', ':'] <+: y := ⟨y.drop 2, by rw [← htake, List.take_append_drop]⟩
    obtain ⟨behind, rfl⟩ := prefix_of_rewritten (rewritten_of_expandFrom h) (Text.forall_mem_of_all (by decide)) hprefix
    exact hc.opener ⟨rfl, rfl⟩

theorem IsSettled.ordinary {c : Char} (hc : c ∉ ['\\', '[', ']', ':']) {t : Text} (h : IsSettled true t) :
    IsSettled true (c :: t) := by
  have hsign : ∀ d ∈ ['\\', '[', ']'], d ∈ ['\\', '[', ']', ':'] := Text.forall_mem_of_all (by decide)
  exact .member (fun hmem => hc (hsign c hmem)) (isPlainAt_of_ne (ne_of_mem_of_not_mem (by decide) hc).symm t) h

/-- the members of a class hold no shorthand, nor does what they are put in front of -/
theorem isSettled_members (k : CharClass) {t : Text} (h : IsSettled true t) : IsSettled true (k.members ++ t) := by
  have hletter : ∀ {t}, IsSettled true t → IsSettled true ("\\p\x7bL\x7d".toList ++ t) := fun h =>
    .escape 'p' (.ordinary (by decide) (.ordinary (by decide) (.ordinary (by decide) h)))
  have hdigit : ∀ {t}, IsSettled true t → IsSettled true ("\\p\x7bNd\x7d".toList ++ t) := fun h =>
    .escape 'p' (.ordinary (by decide) (.ordinary (by decide) (.ordinary (by decide) (.ordinary (by decide) h))))
  have hrange : ∀ {lo hi t}, lo ∉ ['\\', '[', ']', ':'] → hi ∉ ['\\', '[', ']', ':'] → IsSettled true t →
      IsSettled true (lo :: '-' :: hi :: t) := fun hlo hhi h => .ordinary hlo (.ordinary (by decide) (.ordinary hhi h))
  cases k with
  | alpha => exact hletter h
  | digit => exact hdigit h
  | alnum => exact hletter (hdigit h)
  | xdigit =>
    exact hrange (by decide) (by decide) (hrange (by decide) (by decide) (hrange (by decide) (by decide) h))
  | ascii =>
    have hhigh : IsSettled true ("\\x7F".toList ++ t) := .escape 'x' (.ordinary (by decide) (.ordinary (by decide) h))
    exact .escape 'x' (.ordinary (by decide) (.ordinary (by decide) (.ordinary (by decide) hhigh)))

/-- the opening of a bracket expression, in front of members with nothing to expand -/
theorem isSettled_opening (source : Text) {opened : ℕ}
    (hy : expandFrom (.within opened) position (source.drop (opening source).1) = .ok y) (h : IsSettled true y) :
    IsSettled false ('[' :: (opening source).2 ++ y) := by
  by_cases hclose : source.head? = some ']'
  · obtain ⟨more, rfl⟩ := List.head?_eq_some_iff.1 hclose
    exact .bracket (t := '\\' :: ']' :: y) (by simp) (by simp) (.escape ']' h)
  · by_cases hcaret : source.head? = some '^'
    · obtain ⟨more, rfl⟩ := List.head?_eq_some_iff.1 hcaret
      by_cases hmore : more.head? = some ']'
      · obtain ⟨behind, rfl⟩ := List.head?_eq_some_iff.1 hmore
        exact .negated (t := '\\' :: ']' :: y) (by simp) (.escape ']' h)
      · rw [opening_negated hmore] at hy ⊢
        exact .negated (head?_of_expandFrom hy (by decide) hmore) h
    · rw [opening_of_head? hcaret hclose] at hy ⊢
      exact .bracket (head?_of_expandFrom hy (by decide) hcaret) (head?_of_expandFrom hy (by decide) hclose) h

/-- **An expansion has nothing left to expand**, from any place on -/
theorem isSettled_of_expandFrom {t x : Text} (h : expandFrom place position t = .ok x) : IsSettled place.isWithin x := by
  fun_induction expandFrom place position t generalizing x with
  | case1 position => exact Except.ok.inj h ▸ .nil
  | case2 position opened => cases h
  | case3 place position rest ih =>
    obtain ⟨y, hy, rfl⟩ := ok_of_emit h
    cases rest with
    | cons c rest => exact .escape c (ih hy)
    | nil =>
      cases place with
      | outside =>
        rw [List.drop_nil, expandFrom] at hy
        exact Except.ok.inj hy ▸ .lone
      | within opened =>
        rw [List.drop_nil, expandFrom] at hy
        cases hy
  | case4 position c rest hc hopener ih =>
    obtain ⟨y, hy, rfl⟩ := ok_of_emit h
    exact .opener (ih hy)
  | case5 position rest n written ho _ _ ih =>
    obtain ⟨y, hy, rfl⟩ := ok_of_emit h
    have hopening := isSettled_opening rest (by rw [ho]; exact hy) (ih hy)
    rwa [ho] at hopening
  | case6 position c rest hc hopener hbracket k hk n =>
    rename_i ih
    obtain ⟨y, hy, rfl⟩ := ok_of_emit h
    obtain ⟨d, more, hmembers, hcaret, hclose⟩ : ∃ d more, k.members = d :: more ∧ d ≠ '^' ∧ d ≠ ']' := by
      cases k <;> exact ⟨_, _, rfl, by decide, by decide⟩
    have hsettled : IsSettled true (k.members ++ (']' :: y)) := isSettled_members k (.close (ih hy))
    have hwhole : '[' :: k.members ++ [']'] ++ y = '[' :: (k.members ++ (']' :: y)) := by simp
    rw [hwhole]
    exact .bracket (by simpa [hmembers] using hcaret) (by simpa [hmembers] using hclose) hsettled
  | case7 position c rest hc hopener hbracket hk ih =>
    obtain ⟨y, hy, rfl⟩ := ok_of_emit h
    exact .char (isOpen_of_copied hy ⟨hc, hopener, hbracket⟩) (isPlainAt_of_copied hy (isPlainAt_iff.2 hk)) (ih hy)
  | case8 position rest opened _ ih =>
    obtain ⟨y, hy, rfl⟩ := ok_of_emit h
    exact .close (ih hy)
  | case9 position c rest hc opened hclose k length hk n dash m =>
    rename_i ih
    obtain ⟨y, hy, rfl⟩ := ok_of_emit h
    rw [List.append_assoc]
    apply isSettled_members
    split
    · exact .escape '-' (ih hy)
    · exact ih hy
  | case10 => cases h
  | case11 position c rest hc opened hclose hk hopen written =>
    rename_i ih
    obtain ⟨y, hy, rfl⟩ := ok_of_emit h
    by_cases hdash : c = '-' ∧ (memberAt? rest).isSome = true
    · rw [show written = "\\-".toList from if_pos hdash]
      exact .escape '-' (ih hy)
    · rw [show written = [c] from if_neg hdash]
      have hsign : c ∉ ['\\', '[', ']'] := by
        simp only [List.mem_cons, List.not_mem_nil, or_false, not_or]
        exact ⟨hc, hopen, hclose⟩
      exact .member hsign (isPlainAt_of_copied hy (isPlainAt_of_memberAt? hk)) (ih hy)

/-! ## What is copied -/

/-- **A text with nothing to expand is copied**, at any place -/
theorem expandFrom_of_isSettled {inside : Bool} {t : Text} (h : IsSettled inside t) {place : Place}
    (hplace : place.isWithin = inside) (position : ℕ) : expandFrom place position t = .ok t := by
  induction h generalizing place position with
  | nil =>
    obtain rfl := Place.eq_outside hplace
    rw [expandFrom]
  | lone =>
    obtain rfl := Place.eq_outside hplace
    rw [expandFrom_escape, List.drop_nil, expandFrom]
    rfl
  | escape c _ ih =>
    rw [expandFrom_escape, List.drop_one, List.tail_cons, ih hplace]
    rfl
  | @opener t _ ih =>
    obtain rfl := Place.eq_outside hplace
    have hopener : expandFrom .outside position ('(' :: '?' :: ':' :: t) =
        emit "(?:".toList (expandFrom .outside (position + 3) t) := expandFrom_opener rfl
    rw [hopener, ih rfl]
    rfl
  | char hc hplain _ ih =>
    obtain rfl := Place.eq_outside hplace
    rw [expandFrom_char hc (isPlainAt_iff.1 hplain), ih rfl]
    rfl
  | bracket hcaret hclose _ ih =>
    obtain rfl := Place.eq_outside hplace
    rw [expandFrom_bracket, opening_of_head? hcaret hclose, List.drop_zero, ih rfl]
    rfl
  | negated hclose _ ih =>
    obtain rfl := Place.eq_outside hplace
    rw [expandFrom_bracket, opening_negated hclose, List.drop_one, List.tail_cons, ih rfl]
    rfl
  | @member c t hc hplain hrest ih =>
    obtain ⟨opened, rfl⟩ := Place.exists_within hplace
    have hne : ∀ d ∈ ['\\', '[', ']'], c ≠ d := fun d hd => (ne_of_mem_of_not_mem hd hc).symm
    -- no shorthand stands behind a dash either, so it is copied like any other character
    have hdash : ¬(c = '-' ∧ (memberAt? t).isSome = true) := by
      rw [hrest.memberAt?_eq_none]
      simp
    have hnone := memberAt?_of_isPlainAt (hne '[' (by decide)) hplain
    rw [expandFrom_within (hne _ (by decide)) (hne _ (by decide)) (hne _ (by decide)) hnone, if_neg hdash, ih rfl]
    rfl
  | close _ ih =>
    obtain ⟨opened, rfl⟩ := Place.exists_within hplace
    rw [expandFrom_close, ih rfl]
    rfl

/-- a constraint is expanded as it stands exactly when it has nothing to expand -/
theorem expand_eq_self_iff {t : Text} : expand t = .ok t ↔ IsSettled false t :=
  ⟨isSettled_of_expandFrom, fun h => expandFrom_of_isSettled h rfl 0⟩

instance (t : Text) : Decidable (IsSettled false t) := decidable_of_iff _ expand_eq_self_iff

/-- **Expanding is idempotent.** What a constraint expands to has no shorthand and no open or nested bracket, and is expanded as
it stands. -/
theorem expand_idempotent {t x : Text} (h : expand t = .ok x) : IsSettled false x ∧ expand x = .ok x := by
  have hsettled : IsSettled false x := isSettled_of_expandFrom h
  exact ⟨hsettled, expandFrom_of_isSettled hsettled rfl 0⟩

/-- an opener in front of the name of a class, a bracket that starts with its own end, dashes around shorthands in both
spellings, a shorthand in front of half of one, and a backslash at the end -/
theorem expand_idempotent_mixed :
    let t := "(?:alpha:[^]a-[:digit:]-:alpha:digit:]:xdigit::ascii\\:digit:[--:alnum:]:word:\\".toList
    let x := "(?:alpha:[^\\]a\\-\\p\x7bNd\x7d\\-\\p\x7bL\x7ddigit:][0-9a-fA-F]".toList ++
      ":ascii\\:digit:[-\\-\\p\x7bL\x7d\\p\x7bNd\x7d]:word:\\".toList
    expand t = .ok x ∧ IsSettled false x ∧ expand x = .ok x := by
  intro t x
  have h : expand t = .ok x := by decide +kernel
  exact ⟨h, expand_idempotent h⟩

end UriRouting.Template
