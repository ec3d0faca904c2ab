/-
Texts. A text is a list of characters, one per code point; every position and every length in this library counts
code points. Beside the type stand the few cuts that the rest of the library makes: at the first occurrence of a
character, and at a leading or trailing run of one character.
-/

namespace UriRouting

/-- a text: its characters in order -/
abbrev Text := List Char

-- named here, so that texts are compared and hashed alike whatever else is imported
instance : LawfulBEq Text := inferInstance

instance : Hashable Text := @instHashableList Char instHashableChar

namespace Text

/-- the text before the first c, and the text after it; without a c the second part is absent -/
def cutAt (c : Char) : Text → Text × Option Text
  | [] => ([], none)
  | x :: rest => if x = c then ([], some rest) else ((x :: (cutAt c rest).1), (cutAt c rest).2)

/-- the pieces between the occurrences of c, always at least one -/
def splitAll (c : Char) : Text → List Text
  | [] => [[]]
  | x :: rest =>
    if x = c then [] :: splitAll c rest
    else
      match splitAll c rest with
      | [] => [[x]]
      | piece :: pieces => (x :: piece) :: pieces

/-- the text without the c's it starts with -/
def dropLeading (t : Text) (c : Char) : Text := t.dropWhile (· == c)

/-- the text without the c's it ends with -/
def dropTrailing (t : Text) (c : Char) : Text := (t.reverse.dropWhile (· == c)).reverse

/-- what follows when the text starts with the given one -/
def after? : Text → Text → Option Text
  | [], t => some t
  | _ :: _, [] => none
  | x :: start, y :: t => if x = y then after? start t else none

def joinWith (sep : Text) : List Text → Text
  | [] => []
  | [t] => t
  | t :: u :: rest => t ++ sep ++ joinWith sep (u :: rest)

/-- the text filled up with blanks on the right to a width -/
def padRight (width : Nat) (t : Text) : Text := t ++ List.replicate (width - t.length) ' '

/-- what is checked of one character after the other holds of them all -/
theorem forall_mem_of_all {t : Text} {p : Char → Prop} [DecidablePred p] (h : t.all (fun c => decide (p c)) = true) :
    ∀ c ∈ t, p c :=
  fun c hc => of_decide_eq_true (List.all_eq_true.1 h c hc)

@[simp] theorem after?_append (s t : Text) : after? s (s ++ t) = some t := by
  induction s with
  | nil => rfl
  | cons c s ih => simp [after?, ih]

theorem eq_append_of_after? {s t r : Text} (h : after? s t = some r) : t = s ++ r := by
  induction s generalizing t with
  | nil => simpa [after?] using h
  | cons c s ih =>
    cases t with
    | nil => simp [after?] at h
    | cons d t =>
      simp only [after?] at h
      split at h
      · rename_i hcd; simp [hcd, ih h]
      · simp at h

/-- a cut loses nothing but the character it is made at -/
theorem cutAt_append (c : Char) (t : Text) :
    t = (cutAt c t).1 ++ (match (cutAt c t).2 with | none => [] | some r => c :: r) := by
  induction t with
  | nil => rfl
  | cons x t ih =>
    simp only [cutAt]
    split
    · rename_i hx; simp [hx]
    · simpa using ih

/-- the cut is made at the first occurrence -/
theorem cutAt_of_not_mem {c : Char} {t : Text} (h : c ∉ t) (rest : Text) : cutAt c (t ++ c :: rest) = (t, some rest) := by
  induction t with
  | nil => simp [cutAt]
  | cons x t ih =>
    obtain ⟨hx, ht⟩ := not_or.1 (mt List.mem_cons.2 h)
    rw [List.cons_append, cutAt, if_neg (Ne.symm hx), ih ht]

theorem not_mem_cutAt (c : Char) (t : Text) : c ∉ (cutAt c t).1 := by
  induction t with
  | nil => exact List.not_mem_nil
  | cons x t ih =>
    rw [cutAt]
    split
    · exact List.not_mem_nil
    · rename_i hx
      exact List.not_mem_cons_of_ne_of_not_mem (Ne.symm hx) ih

end Text

end UriRouting
