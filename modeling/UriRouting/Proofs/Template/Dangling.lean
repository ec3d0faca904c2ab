/-
Where the scan of a constraint stands at the end of a text. A scan from the left pairs a backslash with the character behind it
and goes on behind both. Where it comes to the end of a text with a backslash that has nothing behind it, the text dangles: put
in front of another one, it would take the first character of that along.

Results:
- `dangles_append`: behind a text that does not dangle the scan starts anew.
- `dangles_expand`: an expansion dangles when its constraint does.
- `expandFrom_append`: an expansion goes on behind its text, where a sign or an opening parenthesis stands there; these are part
  of no shorthand and of no opening. `expand_append_sign` is the case of a sign at the end.
-/
import UriRouting.Proofs.Template.Expand

namespace UriRouting.Template

/-- whether the last backslash of the text is one that a scan from the left pairs with nothing -/
def dangles : Text → Bool
  | [] => false
  | ['\\'] => true
  | '\\' :: _ :: t => dangles t
  | _ :: t => dangles t

/-! ## Texts that dangle -/

theorem dangles_cons {c : Char} (hc : c ≠ '\\') (t : Text) : dangles (c :: t) = dangles t := by
  rw [dangles]
  · exact fun h _ => hc h
  · exact fun _ _ h _ => hc h

/-- a character at which neither a lone backslash nor a pair begins is no backslash -/
theorem ne_backslash {c : Char} {t : Text} (hlone : c = '\\' → t = [] → False)
    (hescape : ∀ d rest, c = '\\' → t = d :: rest → False) : c ≠ '\\' := by
  rintro rfl
  cases t with
  | nil => exact hlone rfl rfl
  | cons d rest => exact hescape d rest rfl rfl

/-- **Behind a text that does not dangle the scan starts anew** -/
theorem dangles_append {s : Text} (hs : dangles s = false) (t : Text) : dangles (s ++ t) = dangles t := by
  fun_induction dangles s with
  | case1 => rfl
  | case2 => cases hs
  | case3 c s ih => exact ih hs
  | case4 c s hlone hescape ih =>
    rw [List.cons_append, dangles_cons (ne_backslash hlone hescape), ih hs]

/-- a text that dangles ends in the backslash that is left over -/
theorem exists_of_dangles {t : Text} (h : dangles t = true) : ∃ u, t = u ++ ['\\'] ∧ dangles u = false := by
  fun_induction dangles t with
  | case1 => cases h
  | case2 => exact ⟨[], rfl, rfl⟩
  | case3 c t ih =>
    obtain ⟨u, rfl, hu⟩ := ih h
    exact ⟨'\\' :: c :: u, rfl, hu⟩
  | case4 c t hlone hescape ih =>
    obtain ⟨u, rfl, hu⟩ := ih h
    exact ⟨c :: u, rfl, (dangles_cons (ne_backslash hlone hescape) u).trans hu⟩

theorem dangles_append_backslash {u : Text} (hu : dangles u = false) : dangles (u ++ ['\\']) = true :=
  dangles_append hu ['\\']

/-- a text that ends in another character does not dangle -/
theorem dangles_append_of_ne {c : Char} (hc : c ≠ '\\') (t : Text) : dangles (t ++ [c]) = false := by
  by_contra h
  obtain ⟨u, hu, -⟩ := exists_of_dangles (Bool.eq_true_of_not_eq_false h)
  exact hc (List.singleton_inj.1 (List.append_inj' hu rfl).2)

theorem dangles_of_not_mem {t : Text} (h : '\\' ∉ t) : dangles t = false := by
  by_contra hdangles
  obtain ⟨u, rfl, -⟩ := exists_of_dangles (Bool.eq_true_of_not_eq_false hdangles)
  exact h (by simp)

variable {t : Text} {c : Char}

/-! ## Expansions -/

/-- behind a stretch without backslashes the rest decides -/
theorem dangles_of_split {w rest : Text} (hw : '\\' ∉ w) (h : t = w ++ rest) : dangles t = dangles rest := by
  rw [h, dangles_append (dangles_of_not_mem hw)]

theorem opening_eq_append (source : Text) : ∃ w, '\\' ∉ w ∧ source = w ++ source.drop (opening source).1 ∧
    dangles (opening source).2 = false := by
  unfold opening
  split
  · exact ⟨"^]".toList, by decide, rfl, rfl⟩
  · exact ⟨"^".toList, by decide, rfl, rfl⟩
  · exact ⟨"]".toList, by decide, rfl, rfl⟩
  · exact ⟨[], by simp, rfl, rfl⟩

theorem dangles_members (k : CharClass) : dangles k.members = false := by
  cases k <;> rfl

theorem dangles_memberText (rest : Text) (k : CharClass) (n : ℕ) : dangles (memberText rest k n) = false := by
  rw [memberText, dangles_append (dangles_members k)]
  split <;> rfl

/-- **An expansion dangles when its constraint does**: escape pairs are copied, and nothing written ends in half of one -/
theorem dangles_of_expandFrom {place : Place} {position : ℕ} {x : Text} (h : expandFrom place position t = .ok x) :
    dangles x = dangles t := by
  fun_induction expandFrom place position t generalizing x with
  | case1 position => rw [← Except.ok.inj h]
  | case2 position opened => cases h
  | case3 place position rest ih =>
    obtain ⟨y, hy, rfl⟩ := ok_of_emit h
    cases rest with
    | cons d rest =>
      have hrest : dangles y = dangles rest := ih hy
      exact hrest
    | nil =>
      cases place with
      | outside =>
        rw [List.drop_nil, expandFrom] at hy
        rw [← Except.ok.inj hy]
        rfl
      | within opened =>
        rw [List.drop_nil, expandFrom] at hy
        cases hy
  | case4 position c rest hc hopener ih =>
    obtain ⟨y, hy, rfl⟩ := ok_of_emit h
    obtain ⟨rfl, hrest⟩ := hopener
    exact (ih hy).trans (dangles_of_split (by decide) (opener_eq_append hrest)).symm
  | case5 position rest n written ho _ _ ih =>
    obtain ⟨y, hy, rfl⟩ := ok_of_emit h
    obtain ⟨w, hw, hsplit, hwritten⟩ := opening_eq_append rest
    rw [ho] at hsplit hwritten
    rw [List.cons_append, dangles_cons (by decide), dangles_cons (by decide), dangles_append hwritten, ih hy]
    exact (dangles_of_split hw hsplit).symm
  | case6 position c rest hc hopener hbracket k hk n =>
    rename_i ih
    obtain ⟨y, hy, rfl⟩ := ok_of_emit h
    rw [dangles_append (dangles_append_of_ne (by decide) _), ih hy]
    exact (dangles_of_split (by cases k <;> decide) (shorthand_eq_append hk)).symm
  | case7 position c rest hc hopener hbracket hk ih =>
    obtain ⟨y, hy, rfl⟩ := ok_of_emit h
    rw [List.singleton_append, dangles_cons hc, dangles_cons hc, ih hy]
  | case8 position rest opened _ ih =>
    obtain ⟨y, hy, rfl⟩ := ok_of_emit h
    rw [List.singleton_append, dangles_cons (by decide), dangles_cons (by decide), ih hy]
  | case9 position c rest hc opened hclose k length hk n dash m =>
    rename_i ih
    obtain ⟨y, hy, rfl⟩ := ok_of_emit h
    obtain ⟨w, hw, hsplit⟩ := member_eq_append hk
    have hchunk : dangles (k.members ++ if dash then "\\-".toList else []) = false := dangles_memberText rest k length
    rw [dangles_append hchunk, ih hy]
    exact (dangles_of_split hw hsplit).symm
  | case10 => cases h
  | case11 position c rest hc opened hclose hk hopen written =>
    rename_i ih
    obtain ⟨y, hy, rfl⟩ := ok_of_emit h
    have hwritten : dangles written = false := by
      by_cases hdash : c = '-' ∧ (memberAt? rest).isSome = true
      · rw [show written = "\\-".toList from if_pos hdash]
        rfl
      · rw [show written = [c] from if_neg hdash, dangles_cons hc]
        rfl
    rw [dangles_append hwritten, dangles_cons hc, ih hy]

theorem dangles_expand {x : Text} (h : expand t = .ok x) : dangles x = dangles t := dangles_of_expandFrom h

/-! ## What stands behind a constraint -/

/-- a sign behind an element: any number of times, or at least once -/
def IsSign (c : Char) : Prop := c = '*' ∨ c = '+'

/-- a character that nothing in front of it takes along, an escape apart -/
def IsBreak (c : Char) : Prop := IsSign c ∨ c = '('

variable {q : Char} {r : Text}

theorem not_mem_of_isBreak (hq : IsBreak q) {w : Text} (hw : '*' ∉ w ∧ '+' ∉ w ∧ '(' ∉ w) : q ∉ w := by
  rcases hq with (rfl | rfl) | rfl
  · exact hw.1
  · exact hw.2.1
  · exact hw.2.2

theorem isPrefixOf_append_of_not_mem {x : Text} (hx : q ∉ x) (t : Text) :
    x.isPrefixOf (t ++ q :: r) = x.isPrefixOf t := by
  induction x generalizing t with
  | nil => simp
  | cons c x ih =>
    have hc : (c == q) = false := by
      rw [beq_eq_false_iff_ne]
      rintro rfl
      exact hx List.mem_cons_self
    have hx' : q ∉ x := fun h => hx (List.mem_cons_of_mem c h)
    cases t with
    | nil => simp [List.isPrefixOf, hc]
    | cons d t => simp [List.isPrefixOf, ih hx']

theorem not_mem_spelling (hq : IsBreak q) (k : CharClass) : q ∉ k.spelling :=
  not_mem_of_isBreak hq (by cases k <;> decide)

theorem not_mem_bracketed (hq : IsBreak q) (k : CharClass) : q ∉ k.bracketed :=
  not_mem_of_isBreak hq (by cases k <;> decide)

theorem find?_spelling_append (hq : IsBreak q) (t : Text) :
    (CharClass.all.find? fun k => k.spelling.isPrefixOf (t ++ q :: r)) =
      CharClass.all.find? fun k => k.spelling.isPrefixOf t := by
  simp only [isPrefixOf_append_of_not_mem (not_mem_spelling hq _)]

theorem memberAt?_append (hq : IsBreak q) (t : Text) : memberAt? (t ++ q :: r) = memberAt? t := by
  simp only [memberAt?, isPrefixOf_append_of_not_mem (not_mem_spelling hq _),
    isPrefixOf_append_of_not_mem (not_mem_bracketed hq _)]

theorem opening_append (hq : IsBreak q) (t : Text) : opening (t ++ q :: r) = opening t := by
  match t with
  | [] => rcases hq with (rfl | rfl) | rfl <;> rfl
  | [c] => by_cases h1 : c = '^' <;> by_cases h2 : c = ']' <;> rcases hq with (rfl | rfl) | rfl <;> simp_all [opening]
  | c :: d :: t =>
    by_cases h1 : c = '^' <;> by_cases h2 : c = ']' <;> by_cases h3 : d = ']' <;> simp_all [opening]

theorem take_opener_append (hq : IsBreak q) {rest : Text} (h : rest.take 2 ≠ ['?', ':']) :
    (rest ++ q :: r).take 2 ≠ ['?', ':'] := by
  cases rest with
  | nil => rcases hq with (rfl | rfl) | rfl <;> simp
  | cons d rest =>
    cases rest with
    | nil => rcases hq with (rfl | rfl) | rfl <;> simp
    | cons e rest => simpa using h

theorem IsOpen.append {rest : Text} (hq : IsBreak q) (h : IsOpen c rest) : IsOpen c (rest ++ q :: r) := by
  refine ⟨h.escape, ?_, h.bracket⟩
  intro hopener
  exact take_opener_append hq (fun htake => h.opener ⟨hopener.1, htake⟩) hopener.2

/-- the dash behind a shorthand stays where it is -/
theorem head?_drop_append {rest : Text} (hq : IsBreak q) {n : ℕ} (hn : n ≤ rest.length) :
    ((rest ++ q :: r).drop n).head? = some '-' ↔ (rest.drop n).head? = some '-' := by
  rw [List.drop_append_of_le_length hn]
  cases rest.drop n with
  | nil => rcases hq with (rfl | rfl) | rfl <;> simp
  | cons d more => rfl

theorem memberEnd_append {rest : Text} (hq : IsBreak q) {length : ℕ} (h : length - 1 ≤ rest.length) :
    memberEnd (rest ++ q :: r) length = memberEnd rest length := by
  simp only [memberEnd, head?_drop_append hq h]

theorem memberText_append {rest : Text} (hq : IsBreak q) (k : CharClass) {length : ℕ} (h : length - 1 ≤ rest.length) :
    memberText (rest ++ q :: r) k length = memberText rest k length := by
  simp only [memberText, head?_drop_append hq h]

/-- what is written in front does not matter to what comes behind the end -/
theorem emit_append {t x : Text} {result longer behind : Except BracketFault Text} (h : emit t result = .ok x)
    (hrest : ∀ {y : Text}, result = .ok y → longer = emit y behind) : emit t longer = emit x behind := by
  obtain ⟨y, hy, rfl⟩ := ok_of_emit h
  rw [hrest hy, emit_emit]

/-- **An expansion goes on behind its text**, where the text does not dangle and a sign or an opening parenthesis follows -/
theorem expandFrom_append (hq : IsBreak q) {place : Place} {position finish : ℕ} {x : Text}
    (h : expandFrom place position t = .ok x) (hdangles : dangles t = false) (hfinish : position + t.length = finish) :
    expandFrom place position (t ++ q :: r) = emit x (expandFrom .outside finish (q :: r)) := by
  fun_induction expandFrom place position t generalizing x with
  | case1 position =>
    obtain rfl : position = finish := hfinish
    rw [← Except.ok.inj h, emit_nil, List.nil_append]
  | case2 => simp at h
  | case3 place position rest ih =>
    cases rest with
    | nil => cases hdangles
    | cons d rest =>
      rw [List.length_cons, List.length_cons] at hfinish
      have hrest : dangles rest = false := hdangles
      rw [List.cons_append, List.cons_append, expandFrom_escape]
      exact emit_append h fun hy => ih hy hrest (by rw [List.drop_one, List.tail_cons]; omega)
  | case4 position c rest hc hopener ih =>
    obtain ⟨rfl, hrest⟩ := hopener
    obtain ⟨more, rfl⟩ : ∃ more, rest = '?' :: ':' :: more := ⟨_, (List.cons.inj (opener_eq_append hrest)).2⟩
    have hmore : dangles more = false := hdangles
    simp only [List.length_cons] at hfinish
    rw [List.cons_append, expandFrom_opener rfl]
    exact emit_append h fun hy => ih hy hmore (by rw [List.drop_succ_cons, List.drop_succ_cons, List.drop_zero]; omega)
  | case5 position rest n written ho _ _ ih =>
    have hn : n ≤ rest.length := by
      have := length_opening_le rest
      rwa [ho] at this
    obtain ⟨w, hw, hsplit, -⟩ := opening_eq_append rest
    rw [ho] at hsplit
    have hrest : dangles (rest.drop n) = false :=
      (dangles_of_split hw hsplit).symm.trans ((dangles_cons (by decide) rest).symm.trans hdangles)
    rw [List.length_cons] at hfinish
    rw [List.cons_append, expandFrom_bracket, opening_append hq, ho, List.drop_append_of_le_length hn]
    exact emit_append h fun hy => ih hy hrest (by rw [List.length_drop]; omega)
  | case6 position c rest hc hopener hbracket k hk n =>
    rename_i ih
    have hn : k.spelling.length - 1 ≤ rest.length := by
      have := length_spelling_le hk
      rw [List.length_cons] at this
      omega
    have hk' : CharClass.all.find? (fun k => k.spelling.isPrefixOf (c :: (rest ++ q :: r))) = some k :=
      (find?_spelling_append hq (c :: rest)).trans hk
    have hrest : dangles (rest.drop n) = false :=
      (dangles_of_split (by cases k <;> decide) (shorthand_eq_append hk)).symm.trans hdangles
    rw [List.length_cons] at hfinish
    rw [List.cons_append, expandFrom_shorthand (IsOpen.append hq ⟨hc, hopener, hbracket⟩) hk',
      List.drop_append_of_le_length hn]
    exact emit_append h fun hy => ih hy hrest (by rw [List.length_drop]; omega)
  | case7 position c rest hc hopener hbracket hk ih =>
    have hk' : CharClass.all.find? (fun k => k.spelling.isPrefixOf (c :: (rest ++ q :: r))) = none :=
      (find?_spelling_append hq (c :: rest)).trans hk
    rw [List.length_cons] at hfinish
    rw [List.cons_append, expandFrom_char (IsOpen.append hq ⟨hc, hopener, hbracket⟩) hk']
    exact emit_append h fun hy => ih hy ((dangles_cons hc rest).symm.trans hdangles) (by omega)
  | case8 position rest opened _ ih =>
    rw [List.length_cons] at hfinish
    rw [List.cons_append, expandFrom_close]
    exact emit_append h fun hy => ih hy ((dangles_cons (by decide) rest).symm.trans hdangles) (by omega)
  | case9 position c rest hc opened hclose k length hk n dash m =>
    rename_i ih
    have hk' : memberAt? (c :: (rest ++ q :: r)) = some (k, length) := (memberAt?_append hq (c :: rest)).trans hk
    have hn : length - 1 ≤ rest.length := by
      have := length_memberAt?_le hk
      rw [List.length_cons] at this
      omega
    obtain ⟨w, hw, hsplit⟩ := member_eq_append hk
    have hrest : dangles (rest.drop (memberEnd rest length)) = false := (dangles_of_split hw hsplit).symm.trans hdangles
    have hle := memberEnd_le hn
    rw [List.length_cons] at hfinish
    have hposition : position + 1 + memberEnd rest length + (rest.drop (memberEnd rest length)).length = finish := by
      rw [List.length_drop]
      omega
    rw [List.cons_append, expandFrom_member hc hclose hk', memberEnd_append hq hn, memberText_append hq k hn,
      List.drop_append_of_le_length hle]
    exact emit_append h fun hy => ih hy hrest hposition
  | case10 => simp at h
  | case11 position c rest hc opened hclose hk hopen written =>
    rename_i ih
    have hk' : memberAt? (c :: (rest ++ q :: r)) = none := (memberAt?_append hq (c :: rest)).trans hk
    rw [List.length_cons] at hfinish
    rw [List.cons_append, expandFrom_within hc hclose hopen hk', memberAt?_append hq]
    exact emit_append h fun hy => ih hy ((dangles_cons hc rest).symm.trans hdangles) (by omega)

/-- **A sign at the end is expanded as it stands** -/
theorem expand_append_sign (hq : IsSign q) {x : Text} (h : expand t = .ok x) (hx : x.getLast? ≠ some '\\') :
    expand (t ++ [q]) = .ok (x ++ [q]) := by
  have hdangles : dangles t = false := by
    rw [← dangles_expand h]
    by_contra hd
    obtain ⟨u, rfl, -⟩ := exists_of_dangles (Bool.eq_true_of_not_eq_false hd)
    exact hx List.getLast?_concat
  have hopen : IsOpen q [] := by
    rcases hq with rfl | rfl <;> exact ⟨by decide, by decide, by decide⟩
  have hplain : (CharClass.all.find? fun k => k.spelling.isPrefixOf [q]) = none :=
    find?_spelling_append (.inl hq) []
  rw [expand, expandFrom_append (.inl hq) h hdangles rfl, expandFrom_char hopen hplain, expandFrom]
  rfl

end UriRouting.Template
