/-
Expanding a constraint, one stretch at a time: an escape pair, an opener, the opening of a bracket expression, a shorthand, or
one other character. Each comes with the equation of its step, and with what it takes of the text.
-/
import UriRouting.Template.Shorthand
import UriRouting.Proofs.Results

namespace UriRouting.Template

/-! ## One stretch at a time -/

theorem emit_ok (t x : Text) : emit t (.ok x) = .ok (t ++ x) := rfl

theorem ok_of_emit {t x : Text} {r : Except BracketFault Text} (h : emit t r = .ok x) :
    ∃ y, r = .ok y ∧ x = t ++ y := by
  obtain ⟨y, hy, hx⟩ := Results.map_eq_ok_iff.1 h
  exact ⟨y, hy, hx.symm⟩

theorem emit_nil (r : Except BracketFault Text) : emit [] r = r := by
  cases r <;> rfl

theorem emit_emit (s t : Text) (r : Except BracketFault Text) : emit s (emit t r) = emit (s ++ t) r := by
  cases r with
  | error e => rfl
  | ok x => exact congrArg Except.ok (List.append_assoc s t x).symm

variable {c : Char} {rest : Text} {position : ℕ}

theorem expandFrom_escape (place : Place) (position : ℕ) (rest : Text) : expandFrom place position ('\\' :: rest) =
    emit ('\\' :: rest.take 1) (expandFrom place (position + 2) (rest.drop 1)) := by
  rw [expandFrom]

theorem expandFrom_opener (h : rest.take 2 = ['?', ':']) : expandFrom .outside position ('(' :: rest) =
    emit "(?:".toList (expandFrom .outside (position + 3) (rest.drop 2)) := by
  rw [expandFrom]
  · simp [h]
  · simp

theorem expandFrom_bracket : expandFrom .outside position ('[' :: rest) =
    emit ('[' :: (opening rest).2)
      (expandFrom (.within position) (position + 1 + (opening rest).1) (rest.drop (opening rest).1)) := by
  rw [expandFrom]
  · simp
  · simp

/-- a character outside brackets that opens neither an escape, nor a group without a number, nor a bracket -/
structure IsOpen (c : Char) (rest : Text) : Prop where
  escape : c ≠ '\\'
  opener : ¬(c = '(' ∧ rest.take 2 = ['?', ':'])
  bracket : c ≠ '['

theorem expandFrom_shorthand (hc : IsOpen c rest) {k : CharClass}
    (h : (CharClass.all.find? fun k => k.spelling.isPrefixOf (c :: rest)) = some k) :
    expandFrom .outside position (c :: rest) = emit ('[' :: k.members ++ [']'])
      (expandFrom .outside (position + 1 + (k.spelling.length - 1)) (rest.drop (k.spelling.length - 1))) := by
  rw [expandFrom]
  · simp only [if_neg hc.opener, if_neg hc.bracket, h]
  · exact hc.escape

theorem expandFrom_char (hc : IsOpen c rest)
    (h : (CharClass.all.find? fun k => k.spelling.isPrefixOf (c :: rest)) = none) :
    expandFrom .outside position (c :: rest) = emit [c] (expandFrom .outside (position + 1) rest) := by
  rw [expandFrom]
  · simp only [if_neg hc.opener, if_neg hc.bracket, h]
  · exact hc.escape

variable {opened : ℕ}

theorem expandFrom_close : expandFrom (.within opened) position (']' :: rest) =
    emit [']'] (expandFrom .outside (position + 1) rest) := by
  rw [expandFrom]
  · simp
  · simp

/-- how far a shorthand inside brackets reaches: a dash behind it belongs to it -/
def memberEnd (rest : Text) (length : ℕ) : ℕ :=
  if (rest.drop (length - 1)).head? = some '-' then length - 1 + 1 else length - 1

/-- what is written for a shorthand inside brackets, the dash behind it included -/
def memberText (rest : Text) (k : CharClass) (length : ℕ) : Text :=
  k.members ++ if (rest.drop (length - 1)).head? = some '-' then "\\-".toList else []

theorem expandFrom_member {k : CharClass} {length : ℕ} (hescape : c ≠ '\\') (hclose : c ≠ ']')
    (h : memberAt? (c :: rest) = some (k, length)) : expandFrom (.within opened) position (c :: rest) =
      emit (memberText rest k length)
        (expandFrom (.within opened) (position + 1 + memberEnd rest length) (rest.drop (memberEnd rest length))) := by
  rw [expandFrom]
  · simp only [if_neg hclose, h]
    rfl
  · exact hescape

theorem expandFrom_within (hescape : c ≠ '\\') (hclose : c ≠ ']') (hopen : c ≠ '[')
    (h : memberAt? (c :: rest) = none) : expandFrom (.within opened) position (c :: rest) =
      emit (if c = '-' ∧ (memberAt? rest).isSome then "\\-".toList else [c])
        (expandFrom (.within opened) (position + 1) rest) := by
  rw [expandFrom]
  · simp only [if_neg hclose, if_neg hopen, h]
  · exact hescape

/-! ## What a stretch takes -/

theorem eq_append_of_starts {w rest : Text} (hw : w ≠ []) (h : w <+: c :: rest) :
    c :: rest = w ++ rest.drop (w.length - 1) := by
  obtain ⟨d, w, rfl⟩ := List.exists_cons_of_ne_nil hw
  obtain ⟨rfl, z, rfl⟩ := List.cons_prefix_cons.1 h
  simp

theorem startsWith_spelling {t : Text} {k : CharClass}
    (h : (CharClass.all.find? fun k => k.spelling.isPrefixOf t) = some k) : k.spelling <+: t :=
  List.isPrefixOf_iff_prefix.1 (List.find?_some (p := fun k : CharClass => k.spelling.isPrefixOf t) h)

/-- an opener without flags -/
theorem opener_eq_append (h : rest.take 2 = ['?', ':']) : '(' :: rest = "(?:".toList ++ rest.drop 2 := by
  conv_lhs => rw [← List.take_append_drop 2 rest, h]
  rfl

/-- a shorthand outside brackets -/
theorem shorthand_eq_append {k : CharClass}
    (h : (CharClass.all.find? fun k => k.spelling.isPrefixOf (c :: rest)) = some k) :
    c :: rest = k.spelling ++ rest.drop (k.spelling.length - 1) :=
  eq_append_of_starts (by cases k <;> decide) (startsWith_spelling h)

theorem length_spelling_le {t : Text} {k : CharClass}
    (h : (CharClass.all.find? fun k => k.spelling.isPrefixOf t) = some k) : k.spelling.length ≤ t.length :=
  (startsWith_spelling h).length_le

/-- inside brackets a shorthand stands in one of its two spellings -/
theorem startsWith_of_memberAt? {t : Text} {k : CharClass} {n : ℕ} (h : memberAt? t = some (k, n)) :
    ∃ w ∈ [k.bracketed, k.spelling], w <+: t ∧ w.length = n := by
  unfold memberAt? at h
  split at h
  · rename_i k' hk'
    have hp := List.find?_some (p := fun k : CharClass => k.bracketed.isPrefixOf t) hk'
    obtain ⟨rfl, rfl⟩ := Prod.mk.inj (Option.some.inj h)
    exact ⟨_, by simp, List.isPrefixOf_iff_prefix.1 hp, rfl⟩
  · obtain ⟨k', hk', he⟩ := Option.map_eq_some_iff.1 h
    obtain ⟨rfl, rfl⟩ := Prod.mk.inj he
    exact ⟨_, by simp, startsWith_spelling hk', rfl⟩

theorem length_memberAt?_le {t : Text} {k : CharClass} {n : ℕ} (h : memberAt? t = some (k, n)) : n ≤ t.length := by
  obtain ⟨w, -, hprefix, rfl⟩ := startsWith_of_memberAt? h
  exact hprefix.length_le

theorem length_opening_le (t : Text) : (opening t).1 ≤ t.length := by
  unfold opening
  split <;> simp

/-- a shorthand inside brackets, with the dash behind it -/
theorem member_eq_append {rest : Text} {k : CharClass} {n : ℕ} (h : memberAt? (c :: rest) = some (k, n)) :
    ∃ w, '\\' ∉ w ∧ c :: rest = w ++ rest.drop (memberEnd rest n) := by
  obtain ⟨w, hw, hprefix, rfl⟩ := startsWith_of_memberAt? h
  have hplain : w ≠ [] ∧ '\\' ∉ w := by
    simp only [List.mem_cons, List.not_mem_nil, or_false] at hw
    rcases hw with rfl | rfl <;> cases k <;> decide
  have hsplit := eq_append_of_starts hplain.1 hprefix
  unfold memberEnd
  split
  · rename_i hdash
    obtain ⟨more, hmore⟩ := List.head?_eq_some_iff.1 hdash
    refine ⟨w ++ ['-'], by simpa using hplain.2, ?_⟩
    rw [← List.drop_drop, hmore, List.append_assoc, hsplit, hmore]
    rfl
  · exact ⟨w, hplain.2, hsplit⟩

theorem memberEnd_le {length : ℕ} (h : length - 1 ≤ rest.length) : memberEnd rest length ≤ rest.length := by
  unfold memberEnd
  split
  · rename_i hd
    have := List.length_pos_of_ne_nil (List.ne_nil_of_mem (List.mem_of_head? hd))
    rw [List.length_drop] at this
    omega
  · exact h

end UriRouting.Template
