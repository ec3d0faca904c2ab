/-
Sets in front of a closing parenthesis. In a set a closing parenthesis is a member like any other, so a set that is not
closed goes on in the tail; but no bracket is there to close it. One that is closed is read the same.

- `setMember_tail`: a member, which the tail may supply.
- `set_tail`: the set as a whole, which it may not.
-/
import UriRouting.Proofs.Regex.Tail

namespace UriRouting.Regex

open Results

variable {tail s : Text}

/-! ## Classes -/

theorem pastNegation_tail (s tail : Text) :
    pastNegation (s ++ ')' :: tail) = ((pastNegation s).1, (pastNegation s).2 ++ ')' :: tail) := by
  cases s with
  | nil => rfl
  | cons c s => exact pastNegation_append _ (List.cons_ne_nil c s)

theorem pastClass?_tail (s tail : Text) : pastClass? (s ++ ')' :: tail) = (pastClass? s).map (· ++ ')' :: tail) := by
  rcases s with _ | ⟨c, _ | ⟨d, rest⟩⟩
  · rfl
  · have hsingle : pastClass? [c] = none := by simp [pastClass?]
    rw [List.cons_append, List.nil_append, pastClass?_of_ne (fun h => absurd h.2 (by decide)), hsingle]
    rfl
  · by_cases hcd : c = ':' ∧ d = ']'
    · obtain ⟨rfl, rfl⟩ := hcd
      rfl
    · rw [List.cons_append, List.cons_append, pastClass?_of_ne hcd, pastClass?_of_ne hcd]
      rfl

theorem closedClass_tail (htail : IsTail tail) (negated : Bool) (name s : Text) :
    closedClass negated name (s ++ ')' :: tail) =
      (closedClass negated name s).map (Option.map fun x => (x.1, x.2 ++ ')' :: tail)) := by
  unfold closedClass
  rw [pastClass?_tail]
  cases pastClass? s with
  | some rest =>
    simp only [Option.map_some]
    cases bracketClassNames.lookup (normalName name) with
    | some p => rfl
    | none => cases property name <;> rfl
  | none =>
    rcases pastValue?_extends htail (.append false tail s) with ⟨r, r', hr, hr', hvalue⟩ | ⟨hr, hr'⟩
    · obtain rfl := hvalue.resolve_right fun h => absurd h.1 (by decide)
      simp only [Option.map_none, hr, hr', Option.bind_some, pastClass?_tail]
      cases pastClass? r <;> rfl
    · simp only [Option.map_none, hr, hr', Option.bind_none]
      rfl

theorem bracketClass_tail (htail : IsTail tail) (s : Text) :
    bracketClass (s ++ ')' :: tail) = (bracketClass s).map (Option.map fun x => (x.1, x.2 ++ ')' :: tail)) := by
  obtain ⟨hname, hrest⟩ := takeWhile_tail (p := isPropertyNameChar) (by decide) (pastNegation s).2 tail
  rw [bracketClass_eq, bracketClass_eq, pastNegation_tail]
  simp only [hname, hrest, closedClass_tail htail]

/-! ## Members -/

/-- an element of a set is read the same; where there is none the closing parenthesis is one -/
theorem setElement_tail (htail : IsTail tail) (s : Text) : Mirrors tail (setElement s) (setElement (s ++ ')' :: tail)) := by
  cases s with
  | nil =>
    intro a t h
    have hclose : setElement ([] ++ ')' :: tail) = .ok (.code ')'.toNat, tail) := rfl
    obtain ⟨-, rfl⟩ := Prod.mk.inj (Except.ok.inj (hclose.symm.trans h))
    exact List.suffix_rfl
  | cons c s =>
    by_cases hbackslash : c = '\\'
    · subst hbackslash
      exact escape_tail htail _ _ s
    by_cases hclass : c = '[' ∧ s.head? = some ':'
    · obtain ⟨rfl, hhead⟩ := hclass
      obtain ⟨rest, rfl⟩ := List.head?_eq_some_iff.1 hhead
      apply Mirrors.of_eq
      simp only [setElement, List.cons_append, bracketClass_tail htail]
      rcases bracketClass rest with e | _ | x <;> rfl
    · have hs : c = '[' → s.head? ≠ some ':' := fun hc hhead => hclass ⟨hc, hhead⟩
      have hs' : c = '[' → (s ++ ')' :: tail).head? ≠ some ':' := by
        intro hc
        cases s with
        | nil => simp
        | cons d s => exact hs hc
      rw [List.cons_append, setElement_char hbackslash hs, setElement_char hbackslash hs']
      rfl

/-- what follows a dash is read the same -/
theorem afterDash_tail (htail : IsTail tail) (lo : ℕ) (s : Text) :
    Mirrors tail (afterDash lo s) (afterDash lo (s ++ ')' :: tail)) := by
  by_cases hs : s.head? = some ']'
  · obtain ⟨rest, rfl⟩ := List.head?_eq_some_iff.1 hs
    rfl
  · have hs' : (s ++ ')' :: tail).head? ≠ some ']' := by
      cases s with
      | nil => simp
      | cons c s => exact hs
    have helement := setElement_tail htail s
    rw [afterDash_of_ne hs, afterDash_of_ne hs']
    rcases hx : setElement s with e | ⟨a, r⟩
    · rw [hx] at helement
      intro items t h
      split at h
      · cases h
      · rename_i hi rest hy
        split at h
        · exact (Prod.mk.inj (Except.ok.inj h)).2 ▸ helement _ _ hy
        · cases h
      · rename_i hy
        exact (Prod.mk.inj (Except.ok.inj h)).2 ▸ helement _ _ hy
    · rw [hx] at helement
      rw [show setElement (s ++ ')' :: tail) = .ok (a, r ++ ')' :: tail) from helement]
      cases a with
      | code hi =>
        simp only
        split
        · rfl
        · exact nofun
      | _ => rfl

/-- a member of a set is read the same -/
theorem setMember_tail (htail : IsTail tail) (s : Text) : Mirrors tail (setMember s) (setMember (s ++ ')' :: tail)) := by
  have helement := setElement_tail htail s
  rcases hx : setElement s with e | ⟨a, r⟩
  · rw [hx] at helement
    rw [setMember_eq, hx]
    intro items t h
    rcases hy : setElement (s ++ ')' :: tail) with f | ⟨b, rest⟩
    · rw [setMember_eq, hy] at h
      cases h
    · have hsuffix : rest <:+ tail := helement _ _ hy
      have hdash : rest.head? ≠ some '-' := by
        intro hhead
        exact htail.not_mem (by decide : '-' ≠ ')' ∧ '-' ≠ '/' ∧ '-' ≠ '?') (hsuffix.mem (List.mem_of_head? hhead))
      rw [setMember_of_element hy hdash] at h
      exact (Prod.mk.inj (Except.ok.inj h)).2 ▸ hsuffix
  · rw [hx] at helement
    have hy : setElement (s ++ ')' :: tail) = .ok (a, r ++ ')' :: tail) := helement
    by_cases hdash : r.head? = some '-'
    · obtain ⟨rest, rfl⟩ := List.head?_eq_some_iff.1 hdash
      cases a with
      | code lo =>
        rw [setMember_of_dash hx, setMember_of_dash hy]
        exact afterDash_tail htail lo rest
      | _ =>
        rw [setMember_eq, setMember_eq, hx, hy]
        rfl
    · have hdash' : (r ++ ')' :: tail).head? ≠ some '-' := by
        cases r with
        | nil => simp
        | cons c r => exact hdash
      rw [setMember_of_element hx hdash, setMember_of_element hy hdash']
      rfl

/-- the members of a set that is not closed are not closed by the tail -/
theorem setMembers_tail (htail : IsTail tail) {s : Text} {e : Fault} (h : setMembers s = .error e) :
    ∀ x, setMembers (s ++ ')' :: tail) ≠ .ok x := by
  have hbracket : ']' ∉ ')' :: tail := by
    rw [List.mem_cons, not_or]
    exact ⟨by decide, htail.not_mem (by decide)⟩
  fun_induction setMembers s with
  | case1 =>
    intro x hx
    exact hbracket (mem_of_setMembers hx)
  | case2 rest => cases h
  | case3 c s hc f hm =>
    intro x hx
    have hmember := setMember_tail htail (c :: s)
    rw [hm] at hmember
    rw [List.cons_append, setMembers] at hx
    · split at hx
      · cases hx
      · rename_i items rest hy
        have hsuffix : rest <:+ tail := hmember _ _ hy
        split at hx
        · obtain ⟨y, hy', -⟩ := map_eq_ok_iff.1 hx
          exact hbracket (List.mem_cons_of_mem _ (hsuffix.mem (mem_of_setMembers hy')))
        · cases hx
    · exact hc
  | case4 c s hc items rest hm hlen ih =>
    intro x hx
    have hmember := setMember_tail htail (c :: s)
    rw [hm] at hmember
    rw [List.cons_append, setMembers] at hx
    · rw [← List.cons_append, show setMember (c :: s ++ ')' :: tail) = .ok (items, rest ++ ')' :: tail) from hmember] at hx
      simp only at hx
      split at hx
      · obtain ⟨y, hy, -⟩ := map_eq_ok_iff.1 hx
        exact ih (map_eq_error_iff.1 h) y hy
      · cases hx
    · exact hc
  | case5 c s hc items rest hm hlen =>
    intro x hx
    have hmember := setMember_tail htail (c :: s)
    rw [hm] at hmember
    rw [List.cons_append, setMembers] at hx
    · rw [← List.cons_append, show setMember (c :: s ++ ')' :: tail) = .ok (items, rest ++ ')' :: tail) from hmember] at hx
      have hlen' : ¬(rest ++ ')' :: tail).length ≤ (s ++ ')' :: tail).length := by
        rw [List.length_append, List.length_append]
        omega
      simp only [if_neg hlen'] at hx
      cases hx
    · exact hc

/-- **A set is read the same**, and one that is not closed is not closed by the tail -/
theorem set_tail (htail : IsTail tail) (caseless : Bool) (s : Text) :
    Mirrors tail (set caseless s) (set caseless (s ++ ')' :: tail)) := by
  rcases hx : set caseless s with e | ⟨t, r⟩
  · intro a t h
    exfalso
    rw [set_eq] at hx h
    rw [pastNegation_tail] at h
    have hmember := setMember_tail htail (pastNegation s).2
    rcases hm : setMember (pastNegation s).2 with f | ⟨items, rest⟩
    · rw [hm] at hmember
      split at h
      · cases h
      · rename_i items rest hy
        obtain ⟨y, hy', -⟩ := map_eq_ok_iff.1 h
        exact htail.not_mem (by decide) ((hmember _ _ hy).mem (mem_of_setMembers hy'))
    · rw [hm] at hmember hx
      rw [show setMember ((pastNegation s).2 ++ ')' :: tail) = .ok (items, rest ++ ')' :: tail) from hmember] at h
      obtain ⟨y, hy, -⟩ := map_eq_ok_iff.1 h
      exact setMembers_tail htail (map_eq_error_iff.1 hx) y hy
  · exact set_append _ hx

end UriRouting.Regex
