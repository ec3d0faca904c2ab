/-
The groups of placeholders. Every placeholder has a group name of its own (`groupName_injective`), and every group name is
one that an expression may give (`isGroupName_groupName`). `groups n` is the table of the first n of them, as an expression
that opens them in order numbers them.
-/
import Mathlib.Tactic
import UriRouting.Pattern

namespace UriRouting

/-! ## Digits -/

namespace Decimal

theorem digits_of_lt {n : ℕ} (h : n < 10) : digits n = [digit n] := by
  rw [digits, if_pos h]

theorem digits_of_le {n : ℕ} (h : 10 ≤ n) : digits n = digits (n / 10) ++ [digit n] := by
  rw [digits, if_neg (Nat.not_lt.2 h)]

theorem digit_eq (n : ℕ) : ∃ i < 10, i = n % 10 ∧ digit n = digit i :=
  ⟨n % 10, Nat.mod_lt n (by omega), rfl, by rw [digit, digit, Nat.mod_mod]⟩

theorem digit_cases {P : ℕ → Char → Prop} (h : ∀ i < 10, P i (digit i)) (n : ℕ) : P (n % 10) (digit n) := by
  obtain ⟨i, hi, rfl, hd⟩ := digit_eq n
  rw [hd]
  exact h _ hi

theorem mod_eq_of_digit_eq {m n : ℕ} (h : digit m = digit n) : m % 10 = n % 10 := by
  have hval : ∀ n, (digit n).toNat = 0x30 + n % 10 := digit_cases (P := fun i c => c.toNat = 0x30 + i) (by decide)
  have := congrArg Char.toNat h
  rw [hval, hval] at this
  omega

/-- **Two numbers have the same digits only when they are the same number** -/
theorem digits_injective : Function.Injective digits := by
  intro m
  induction m using Nat.strong_induction_on with
  | _ m ih =>
    intro n h
    have hlast : ∀ {a b : Text} {c d : Char}, a ++ [c] = b ++ [d] → a = b ∧ c = d := by
      intro a b c d he
      obtain ⟨ha, hc⟩ := List.append_inj' he rfl
      exact ⟨ha, List.singleton_inj.1 hc⟩
    rcases Nat.lt_or_ge m 10 with hm | hm <;> rcases Nat.lt_or_ge n 10 with hn | hn
    · rw [digits_of_lt hm, digits_of_lt hn] at h
      have := mod_eq_of_digit_eq (List.singleton_inj.1 h)
      omega
    · rw [digits_of_lt hm, digits_of_le hn] at h
      exact absurd (hlast (a := []) h).1.symm (digits_ne_nil _)
    · rw [digits_of_le hm, digits_of_lt hn] at h
      exact absurd (hlast (b := []) h).1 (digits_ne_nil _)
    · rw [digits_of_le hm, digits_of_le hn] at h
      obtain ⟨hfront, hd⟩ := hlast h
      have hdiv := ih (m / 10) (by omega) hfront
      have hmod := mod_eq_of_digit_eq hd
      omega

theorem exists_digit_of_mem_digits {n : ℕ} {c : Char} (h : c ∈ digits n) : ∃ i < 10, c = digit i := by
  induction n using Nat.strong_induction_on with
  | _ n ih =>
    have hlast : ∃ i < 10, digit n = digit i := by
      obtain ⟨i, hi, -, hd⟩ := digit_eq n
      exact ⟨i, hi, hd⟩
    rcases Nat.lt_or_ge n 10 with hn | hn
    · rw [digits_of_lt hn, List.mem_singleton] at h
      exact h ▸ hlast
    · rw [digits_of_le hn, List.mem_append, List.mem_singleton] at h
      rcases h with h | rfl
      · exact ih (n / 10) (by omega) h
      · exact hlast

end Decimal

/-! ## Group names -/

namespace Pattern

theorem groupName_injective : Function.Injective groupName := fun _ _ h =>
  Decimal.digits_injective (List.append_cancel_left h)

/-- what stands in a group name -/
theorem mem_groupName {n : ℕ} {c : Char} (h : c ∈ groupName n) : c ∈ "_perch_p0123456789".toList := by
  have hdigit : ∀ i < 10, Decimal.digit i ∈ "_perch_p0123456789".toList := by decide
  rcases List.mem_append.1 h with h | h
  · exact List.mem_of_mem_take (i := 8) h
  · obtain ⟨i, hi, rfl⟩ := Decimal.exists_digit_of_mem_digits h
    exact hdigit i hi

theorem isGroupName_groupName (n : ℕ) : Regex.isGroupName (groupName n) = true := by
  have hstart : Codepoint.startsIdentifier '_'.toNat = true := by decide
  have hall : ∀ c ∈ "_perch_p0123456789".toList, Codepoint.continuesIdentifier c.toNat = true :=
    List.all_eq_true.1 (by decide)
  have hcons : groupName n = '_' :: ("perch_p".toList ++ Decimal.digits n) := rfl
  rw [Regex.isGroupName, hcons, List.map_cons, Codepoint.isIdentifier, hstart, Bool.true_and, List.all_map,
    List.all_eq_true]
  exact fun c hc => hall c (mem_groupName (hcons ▸ List.mem_cons_of_mem _ hc))

theorem groupName_closes {n : ℕ} : ∀ c ∈ groupName n, c ≠ ')' ∧ c ≠ '>' := by
  have hclose : ')' ∉ "_perch_p0123456789".toList ∧ '>' ∉ "_perch_p0123456789".toList := by decide
  intro c hc
  refine ⟨?_, ?_⟩
  · rintro rfl
    exact hclose.1 (mem_groupName hc)
  · rintro rfl
    exact hclose.2 (mem_groupName hc)

def groups (n : ℕ) : List (Text × ℕ) := (List.range n).map fun i => (groupName i, i + 1)

theorem groups_succ (n : ℕ) : groups (n + 1) = groups n ++ [(groupName n, n + 1)] := by
  rw [groups, List.range_succ, List.map_append]
  rfl

theorem lookup_groups {n i : ℕ} : (groups n).lookup (groupName i) = if i < n then some (i + 1) else none := by
  induction n with
  | zero => rfl
  | succ n ih =>
    rw [groups_succ, List.lookup_append, ih]
    by_cases hi : i < n
    · rw [if_pos hi, if_pos (by omega), Option.some_or]
    · rw [if_neg hi, Option.none_or]
      by_cases he : i = n
      · subst he
        rw [if_pos (by omega)]
        simp
      · have hne : (groupName i == groupName n) = false := beq_eq_false_iff_ne.2 fun h => he (groupName_injective h)
        rw [if_neg (by omega)]
        rw [List.lookup_cons, hne]
        rfl

end Pattern

end UriRouting
