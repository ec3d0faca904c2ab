/-
The group that a compiled expression stands in. The source of a template is wrapped: the flags that it may start with stay in
front, the rest is put between `(?:` and `)`, and a tolerated slash follows. What the machine becomes in front of the slash
is told by how it reads the source on its own (`run_wrap`), as long as the source closes only parentheses that it opened.

- `run_wrap_of_run`: a source that is read to its end on its own, with nothing left open, makes one group.
- `run_of_run_wrap`: there is no other source that is accepted in the group.
-/
import UriRouting.Proofs.Regex.Closing
import UriRouting.Proofs.Regex.Reading
import UriRouting.Pattern

namespace UriRouting.Pattern

open Regex

/-! ## Leading flags -/

def leadingFlags (t : Text) : Flags := (splitFlags t).1.filterMap Flag.ofLetter?

def behindFlags (t : Text) : Machine := { Machine.start with flags := leadingFlags t }

theorem isFlagLetter_iff (c : Char) : isFlagLetter c = (Flag.ofLetter? c).isSome := by
  unfold Flag.ofLetter?
  split <;> first | decide | skip
  simp_all [isFlagLetter]

/-- a text starts with no flag group, or with one that holds letters -/
theorem splitFlags_cases (t : Text) : splitFlags t = ([], t) ∨ ∃ letters rest, letters ≠ [] ∧
    (∀ c ∈ letters, isFlagLetter c = true) ∧ t = '(' :: '?' :: (letters ++ ')' :: rest) ∧
      splitFlags t = ('(' :: '?' :: (letters ++ [')']), rest) := by
  unfold splitFlags
  split
  · rename_i rest
    simp only
    split
    · rename_i behind hbehind
      split
      · exact .inl rfl
      · rename_i hletters
        refine .inr ⟨rest.takeWhile isFlagLetter, behind, ?_, fun c hc => List.all_eq_true.1 List.all_takeWhile c hc, ?_, rfl⟩
        · simpa using hletters
        · rw [← hbehind, List.takeWhile_append_dropWhile]
    · exact .inl rfl
  · exact .inl rfl

theorem splitFlags_append (t : Text) : (splitFlags t).1 ++ (splitFlags t).2 = t := by
  rcases splitFlags_cases t with h | ⟨letters, rest, -, -, ht, h⟩
  · rw [h, List.nil_append]
  · rw [h, ht]
    simp

/-- the flag group of a text turns on its flags, whatever follows -/
theorem run_leadingFlags (t rest : Text) : Machine.start.run ((splitFlags t).1 ++ rest) = (behindFlags t).run rest := by
  rcases splitFlags_cases t with h | ⟨letters, behind, hne, hletters, -, h⟩
  · rw [behindFlags, leadingFlags, h]
    rfl
  · have hflag : ∀ c ∈ letters, (Flag.ofLetter? c).isSome = true := fun c hc => isFlagLetter_iff c ▸ hletters c hc
    have hrun : flagLetters false (letters ++ ')' :: rest) = (letters.filterMap Flag.ofLetter?, ')' :: rest) := by
      simp only [flagLetters, takeRun, Bool.false_eq_true, if_false]
      rw [List.takeWhile_append_of_pos hflag, List.dropWhile_append_of_pos hflag]
      simp [Flag.ofLetter?]
    have hgroup : Machine.start.flagGroup (letters ++ ')' :: rest) = .ok (behindFlags t, rest) := by
      have hflags : leadingFlags t = (Flags.add [] (letters.filterMap Flag.ofLetter?)).remove [] := by
        rw [leadingFlags, h]
        simp [Flags.add, Flags.remove, Flag.ofLetter?]
      have hchange : flagChange false (letters ++ ')' :: rest) = .ok ((letters.filterMap Flag.ofLetter?, []), ')' :: rest) := by
        rw [flagChange, hrun]
        rfl
      rw [Machine.flagGroup, show Machine.start.verbose = false from rfl, hchange, behindFlags, hflags]
      rfl
    have hsign : ∀ c ∈ (letters ++ ')' :: rest).head?, c ∉ ['<', '=', '!', '>', '#', 'P'] := by
      intro c hc
      cases letters with
      | nil => exact absurd rfl hne
      | cons d letters =>
        obtain rfl : d = c := Option.some.inj hc
        have hd := hletters d List.mem_cons_self
        rintro hmem
        simp only [List.mem_cons, List.not_mem_nil, or_false] at hmem
        rcases hmem with rfl | rfl | rfl | rfl | rfl | rfl <;> exact absurd hd (by decide)
    have hstep : Machine.start.step '(' ('?' :: (letters ++ ')' :: rest)) = .ok (behindFlags t, rest) := by
      rw [Machine.step, Machine.parenthesis_of_flags hsign, hgroup]
    rw [h]
    have hlen : rest.length ≤ ('?' :: (letters ++ ')' :: rest)).length := by
      simp only [List.length_cons, List.length_append]
      omega
    simpa using Machine.run_of_step rfl hstep hlen

/-! ## The group -/

/-- the group around a source that starts with these flags -/
def wrapper (flags : Flags) : Enclosure where
  groups := 0
  names := []
  frames := [⟨.plain, flags, .start⟩]
  bounded f hf n h := by
    rw [List.mem_singleton.1 hf] at h
    cases h

def slashTail (trailingSlash : Bool) : Text := if trailingSlash then "/?".toList else []

theorem isTail_slashTail (trailingSlash : Bool) : IsTail (slashTail trailingSlash) := by
  cases trailingSlash <;> simp [IsTail, slashTail]

/-- **A wrapped source is read within its group** -/
theorem run_wrap (trailingSlash : Bool) (t : Text) : Machine.start.run (wrap trailingSlash t) =
    ((behindFlags t).enclosed (wrapper (leadingFlags t))).run ((splitFlags t).2 ++ ')' :: slashTail trailingSlash) := by
  have hsource : wrap trailingSlash t =
      (splitFlags t).1 ++ ("(?:".toList ++ ((splitFlags t).2 ++ ')' :: slashTail trailingSlash)) := by
    simp only [wrap, slashTail, List.append_assoc]
  rw [hsource, run_leadingFlags, Machine.run_open, Machine.enclosed_of_plain rfl rfl]
  rfl

/-! ## Sources that stand alone -/

/-- the source ends in a comment, which would take in what stands behind -/
def EndsInComment (t : Text) : Prop := Machine.start.EndsInComment t

/-- the machine behind the group in which another one has read a source -/
def grouped (flags : Flags) (n : Machine) : Machine := ⟨.push .start n.sequence.close, [], flags, n.groups, n.names⟩

theorem isNumbered_behindFlags (t : Text) : (behindFlags t).IsNumbered := fun _ hx => absurd hx List.not_mem_nil

theorem run_eq_behindFlags (t rest : Text) : Machine.start.run (t ++ rest) = (behindFlags t).run ((splitFlags t).2 ++ rest) := by
  have hsplit : t ++ rest = (splitFlags t).1 ++ ((splitFlags t).2 ++ rest) := by
    rw [← List.append_assoc, splitFlags_append]
  rw [hsplit, run_leadingFlags]

theorem run_start_eq (t : Text) : Machine.start.run t = (behindFlags t).run (splitFlags t).2 := by
  have h := run_eq_behindFlags t []
  rwa [List.append_nil, List.append_nil] at h

theorem endsInComment_iff (t : Text) : EndsInComment t ↔ (behindFlags t).EndsInComment (splitFlags t).2 := by
  rw [EndsInComment, Machine.EndsInComment, Machine.EndsInComment, run_start_eq, run_eq_behindFlags]

/-- **A source that is read to its end on its own makes one group**, in front of the slash -/
theorem run_wrap_of_run {t : Text} {n : Machine} (hn : Machine.start.run t = .ok n) (hframes : n.frames = [])
    (hcomment : ¬EndsInComment t) (trailingSlash : Bool) :
    Machine.start.run (wrap trailingSlash t) = (grouped (leadingFlags t) n).run (slashTail trailingSlash) := by
  rw [run_start_eq] at hn
  rw [endsInComment_iff] at hcomment
  have hleave : (n.enclosed (wrapper (leadingFlags t))).leave = .ok (grouped (leadingFlags t) n) := by
    rw [Machine.enclosed_of_plain rfl rfl, hframes]
    rfl
  rcases Machine.run_close_cases hn (isNumbered_behindFlags t) with ⟨hends, -⟩ | ⟨-, hrun⟩
  · exact absurd hends hcomment
  · rw [run_wrap, hrun (isTail_slashTail trailingSlash) fun r _ => Machine.keeps_of_plain rfl rfl r, Machine.run_close, hleave]

/-- **No other source is accepted in the group**, unless it closes a parenthesis that it did not open -/
theorem run_of_run_wrap {t : Text} {k : Machine} {trailingSlash : Bool}
    (ht : Machine.start.run t ≠ .error .unbalancedParenthesis) (hk : Machine.start.run (wrap trailingSlash t) = .ok k)
    (hframes : k.frames = []) : ∃ n, Machine.start.run t = .ok n ∧ n.frames = [] ∧ ¬EndsInComment t := by
  rw [run_start_eq] at ht ⊢
  rw [run_wrap] at hk
  rw [endsInComment_iff]
  have hcount : (slashTail trailingSlash).count ')' < (wrapper (leadingFlags t)).frames.length := by
    cases trailingSlash <;> exact Nat.one_pos
  exact Machine.run_of_enclosed (isTail_slashTail trailingSlash) ht (isNumbered_behindFlags t)
    (fun r _ => Machine.keeps_of_plain rfl rfl r) hcount hk hframes

/-! ## What is accepted -/

def programOf (m : Machine) : Program := ⟨m.sequence.close, m.groups, m.names, m.flags.asciiOnly⟩

theorem finish_eq_ok_iff {m : Machine} {p : Program} : m.finish = .ok p ↔
    m.frames = [] ∧ m.flags.areCompatible = true ∧ p = programOf m ∧ p.root.references.all p.knows = true := by
  unfold Machine.finish
  constructor
  · intro h
    split at h
    · cases h
    · rename_i hframes
      split at h
      · cases h
      · rename_i hflags
        simp only at h
        split at h
        · rename_i hknown
          obtain rfl := Except.ok.inj h
          exact ⟨by simpa using hframes, by simpa using hflags, rfl, hknown⟩
        · cases h
  · rintro ⟨hframes, hflags, rfl, hknown⟩
    have hnames : (programOf m).root.references.all (programOf m).knows = true := hknown
    simp only [hframes, hflags, List.isEmpty_nil, Bool.not_true, Bool.false_eq_true, if_false]
    exact if_pos hnames

theorem parse_eq_ok_iff {s : Text} {p : Program} : parse s = .ok p ↔ ∃ m, Machine.start.run s = .ok m ∧ m.finish = .ok p := by
  unfold parse
  cases Machine.start.run s with
  | error f => simp
  | ok m => simp

theorem run_ne_of_parse_ne {t : Text} (h : parse t ≠ .error .unbalancedParenthesis) :
    Machine.start.run t ≠ .error .unbalancedParenthesis := by
  intro hrun
  rw [parse, hrun] at h
  exact h rfl

end UriRouting.Pattern
