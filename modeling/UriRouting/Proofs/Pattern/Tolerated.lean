/-
The tolerated slash. A template that is compiled with a slash tolerated matches what it matches without, and that with one
slash behind; no more. This holds of templates whose assembled source closes no parenthesis that it did not open
(`ClosesOwn`), and whose expression does not look for the end of the path. Of notation that the reader does not take up
nothing is said: where `/a(?R)?b` calls the whole expression again, the slash is in the midst of the path.

Results:
- `parse_wrap_slash`: with the slash tolerated, the same sources are accepted, and a slash that is there or not is added.
- `compile_tolerates_slash`: what matches with it and without.
- `slash_tolerated_on_one_branch`: a source that closes the group around it, where only its last branch tolerates a slash.
-/
import UriRouting.Proofs.Pattern.Wrapping
import UriRouting.Proofs.Pattern.Failing
import UriRouting.Proofs.Regex.Followed

namespace UriRouting

open Regex Template

/-! ## Slashes -/

namespace Codepoint

/-- what lies below all that a table folds to is folded from itself alone -/
theorem eq_of_foldThrough {k n : ℕ} {runs : List (ℕ × ℕ × ℕ × ℕ)} (hruns : ∀ r ∈ runs, k < r.2.2.2)
    (h : foldThrough runs n = k) : n = k := by
  induction runs with
  | nil => exact h
  | cons r runs ih =>
    obtain ⟨lo, hi, stride, target⟩ := r
    have htarget : k < target := hruns _ List.mem_cons_self
    rw [foldThrough] at h
    split at h
    · exact h
    · split at h
      · omega
      · exact ih (fun r hr => hruns r (List.mem_cons_of_mem _ hr)) h

theorem le_of_foldedFrom {target k : ℕ} {run : ℕ × ℕ × ℕ × ℕ} (h : foldedFrom target run = some k) : run.1 ≤ k := by
  obtain ⟨lo, hi, stride, first⟩ := run
  simp only [foldedFrom] at h
  split at h
  · have hk := Option.some.inj h
    simp only
    omega
  · cases h

/-- a slash has no case variants but itself -/
theorem eq_slash_of_mem_caseVariants {n : ℕ} (h : '/'.toNat ∈ caseVariants n) : n = '/'.toNat := by
  have htable : ∀ r ∈ foldRuns, '/'.toNat < r.1 ∧ '/'.toNat < r.2.2.2 := by decide +kernel
  simp only [caseVariants, List.cons_append, List.mem_cons, List.mem_append, List.mem_filterMap] at h
  rcases h with h | ⟨run, hrun, hfrom⟩ | h
  · exact eq_of_foldThrough (fun r hr => (htable r hr).2) h.symm
  · exact absurd (le_of_foldedFrom hfrom) (Nat.not_le_of_lt (htable run hrun).1)
  · unfold dottedVariants at h
    split at h <;> exact absurd h (by decide)

theorem eq_slash_of_mem_asciiCaseVariants {n : ℕ} (h : '/'.toNat ∈ asciiCaseVariants n) : n = '/'.toNat := by
  have hslash : '/'.toNat = 47 := rfl
  unfold asciiCaseVariants at h
  split at h
  · simp only [List.mem_cons, List.not_mem_nil, or_false] at h
    omega
  · split at h
    · simp only [List.mem_cons, List.not_mem_nil, or_false] at h
      omega
    · exact (List.mem_singleton.1 h).symm

end Codepoint

theorem Regex.isVariant_slash {asciiOnly caseless : Bool} {c : Char} :
    isVariant asciiOnly caseless c.toNat '/'.toNat = true ↔ c = '/' := by
  constructor
  · intro h
    rw [isVariant, Bool.or_eq_true, beq_iff_eq, List.contains_iff_mem] at h
    have hcode : c.toNat = '/'.toNat := by
      rcases h with h | h
      · exact h
      · unfold variants at h
        split at h
        · split at h
          · exact Codepoint.eq_slash_of_mem_asciiCaseVariants h
          · exact Codepoint.eq_slash_of_mem_caseVariants h
        · exact (List.mem_singleton.1 h).symm
    exact Char.toNat_inj.1 hcode
  · rintro rfl
    simp [isVariant]

namespace Pattern

/-- a slash that is there or not, read under these flags -/
def optionalSlash (flags : Flags) : Expr := .repeated (.char (.literal '/'.toNat flags.caseless)) ⟨0, some 1, false⟩

def withSlash (flags : Flags) (p : Program) : Program := { p with root := .cat p.root (optionalSlash flags) }

/-! ## The source -/

theorem run_slash (m : Machine) : m.run (slashTail true) = .ok (m.pushSettled (optionalSlash m.flags)) :=
  Machine.run_optionalSlash m

theorem references_withSlash (flags : Flags) (p : Program) :
    (withSlash flags p).root.references.all (withSlash flags p).knows = p.root.references.all p.knows := by
  have hroot : (withSlash flags p).root.references = p.root.references := List.append_nil _
  rw [hroot]
  rfl

theorem finish_slash {n : Machine} {flags : Flags} {p : Program} :
    ((grouped flags n).pushSettled (optionalSlash flags)).finish = .ok p ↔
      ∃ q, (grouped flags n).finish = .ok q ∧ p = withSlash flags q := by
  simp only [finish_eq_ok_iff]
  constructor
  · rintro ⟨hframes, hflags, rfl, hknown⟩
    exact ⟨programOf (grouped flags n), ⟨hframes, hflags, rfl, (references_withSlash flags _).symm.trans hknown⟩, rfl⟩
  · rintro ⟨q, ⟨hframes, hflags, rfl, hknown⟩, rfl⟩
    exact ⟨hframes, hflags, rfl, (references_withSlash flags _).trans hknown⟩

/-- **With a slash tolerated the same sources are accepted**, and a slash that is there or not is added -/
theorem parse_wrap_slash {t : Text} (ht : parse t ≠ .error .unbalancedParenthesis) {p : Program} :
    parse (wrap true t) = .ok p ↔ ∃ q, parse (wrap false t) = .ok q ∧ p = withSlash (leadingFlags t) q := by
  have hclosed := run_ne_of_parse_ne ht
  simp only [parse_eq_ok_iff]
  constructor
  · rintro ⟨m, hm, hp⟩
    obtain ⟨n, hn, hframes, hcomment⟩ := run_of_run_wrap hclosed hm (finish_eq_ok_iff.1 hp).1
    rw [run_wrap_of_run hn hframes hcomment, run_slash] at hm
    obtain rfl := Except.ok.inj hm
    obtain ⟨q, hq, rfl⟩ := finish_slash.1 hp
    exact ⟨q, ⟨_, (run_wrap_of_run hn hframes hcomment false).trans (Machine.run_nil _), hq⟩, rfl⟩
  · rintro ⟨q, ⟨m, hm, hq⟩, rfl⟩
    obtain ⟨n, hn, hframes, hcomment⟩ := run_of_run_wrap hclosed hm (finish_eq_ok_iff.1 hq).1
    rw [run_wrap_of_run hn hframes hcomment, slashTail, if_neg Bool.false_ne_true, Machine.run_nil] at hm
    obtain rfl := Except.ok.inj hm
    exact ⟨_, (run_wrap_of_run hn hframes hcomment true).trans (run_slash _), finish_slash.2 ⟨q, hq, rfl⟩⟩

end Pattern

/-! ## The matches -/

namespace Regex.Program

/-- the expression can be followed through to the end of the text -/
def Reaches (p : Program) (path : Text) : Prop := ∃ s ∈ p.outcomes p.root .forward (.start path), s.after = []

theorem isSome_fullMatch (p : Program) (path : Text) : (p.fullMatch path).isSome = true ↔ p.Reaches path := by
  simp only [fullMatch_eq_find?, Option.isSome_map, List.find?_isSome, List.isEmpty_iff, Reaches]

end Regex.Program

namespace Pattern

theorem mem_outcomes_optionalSlash {p : Program} {flags : Flags} {s u : State} :
    u ∈ p.outcomes (optionalSlash flags) .forward s ↔ u = s ∨ Direction.forward.read s = some ('/', u) := by
  have hstep : ∀ t, p.step? (.literal '/'.toNat flags.caseless) .forward s = some t ↔
      Direction.forward.read s = some ('/', t) := by
    intro t
    unfold Program.step?
    cases hread : Direction.forward.read s with
    | none => simp
    | some x =>
      obtain ⟨c, v⟩ := x
      simp only [CharTest.accepts, isVariant_slash]
      by_cases hc : c = '/'
      · simp [hc]
      · simp [hc]
  simp only [optionalSlash, Program.outcomes, Repetition.iterate, Repetition.times, List.flatMap_cons, List.flatMap_nil,
    List.append_nil, Nat.sub_zero, Repetition.upTo, Repetition.mem_order, List.mem_flatMap, List.mem_singleton,
    Option.mem_toList, hstep, or_comm, exists_eq_right']

theorem touchesWord_slash (asciiOnly : Bool) : touchesWord asciiOnly ['/'] = false := by
  cases asciiOnly <;> decide +kernel

/-- **What is reached with a slash at the end**: what is without it, and that with one slash behind -/
theorem reaches_withSlash {flags : Flags} {p : Program} (hp : p.root.ignoresEnd = true) (path : Text) :
    (withSlash flags p).Reaches path ↔ p.Reaches path ∨ ∃ front, path = front ++ ['/'] ∧ p.Reaches front := by
  have hnames : (withSlash flags p).names = p.names := rfl
  have hascii : (withSlash flags p).asciiOnly = p.asciiOnly := rfl
  have hsame : (withSlash flags p).outcomes = p.outcomes := funext fun e => Program.outcomes_congr hnames hascii e
  have hroot : (withSlash flags p).root = .cat p.root (optionalSlash flags) := rfl
  have hfollowed : ∀ front : Text, State.start (front ++ ['/']) = (State.start front).followed ['/'] := fun _ => rfl
  simp only [Program.Reaches, hsame, hroot, Program.outcomes, List.mem_flatMap, mem_outcomes_optionalSlash]
  constructor
  · rintro ⟨u, ⟨s, hs, rfl | hread⟩, hu⟩
    · exact .inl ⟨u, hs, hu⟩
    · -- the slash is the end of the path, and the expression has not come to it
      obtain ⟨before, after, place, cs, hplace⟩ := s
      cases after with
      | nil => cases hread
      | cons c after =>
        obtain ⟨rfl, rfl⟩ := Prod.mk.inj (Option.some.inj hread)
        obtain rfl : after = [] := hu
        have hpath : path = before.reverse ++ ['/'] := (Program.onward_of_mem_outcomes _ _ _ _ hs).whole.symm
        subst hpath
        have huntouched : Untouched ['/'] ⟨before, ['/'], place, cs, hplace⟩ := Nat.le_refl 1
        rw [hfollowed] at hs
        obtain ⟨u, hmem, heq⟩ := (Program.tracks_outcomes (touchesWord_slash _) hp (.start before.reverse) _).1 ⟨hs, huntouched⟩
        have hafter : u.after ++ ['/'] = [] ++ ['/'] := (congrArg State.after heq).symm
        exact .inr ⟨before.reverse, rfl, u, hmem, List.append_cancel_right hafter⟩
  · rintro (⟨s, hs, hafter⟩ | ⟨front, rfl, s, hs, hafter⟩)
    · exact ⟨s, ⟨s, hs, .inl rfl⟩, hafter⟩
    · have hfront := ((Program.tracks_outcomes (touchesWord_slash _) hp (.start front) (s.followed ['/'])).2 ⟨s, hs, rfl⟩).1
      obtain ⟨before, after, place, cs, hplace⟩ := s
      obtain rfl : after = [] := hafter
      exact ⟨_, ⟨_, hfront, .inr rfl⟩, rfl⟩

/-- the path is matched, and its parameters are given -/
def Matches (p : Pattern) (path : Text) : Prop := ∃ parameters, p.parameters? path = .ok (some parameters)

theorem matches_iff {p : Pattern} {path : Text} : p.Matches path ↔ p.HasGroups ∧ p.program.Reaches path := by
  rw [← Program.isSome_fullMatch]
  constructor
  · rintro ⟨parameters, h⟩
    have hmatch : (p.program.fullMatch path).isSome = true := by
      rw [parameters?] at h
      split at h
      · cases h
      · rename_i captures hcaptures
        rw [hcaptures]
        rfl
    refine ⟨?_, hmatch⟩
    by_contra hgroups
    cases h.symm.trans (parameters?_error_iff.2 ⟨rfl, hmatch, hgroups⟩)
  · rintro ⟨hgroups, hmatch⟩
    cases h : p.parameters? path with
    | error e => exact absurd hgroups (parameters?_error_iff.1 h).2.2
    | ok o =>
      cases o with
      | some parameters => exact ⟨parameters, h⟩
      | none =>
        obtain ⟨captures, hcaptures⟩ := Option.isSome_iff_exists.1 hmatch
        rw [parameters?, hcaptures] at h
        obtain ⟨x, -, hx⟩ := Results.map_eq_ok_iff.1 h
        cases hx

/-- the template's source closes no parenthesis that it did not open -/
def ClosesOwn (config : Config) (template : Text) : Prop := ∀ tokens source, tokenize template = .ok tokens →
  assemble config [] tokens = .ok source → parse source ≠ .error .unbalancedParenthesis

/-- **A tolerated slash is exactly one slash that is there or not**: a template compiles with it when it does without, and then,
where the expression does not look for the end of the path, matches what it matches without, and that with one slash behind -/
theorem compile_tolerates_slash (config : Config) {template : Text} (hclosed : ClosesOwn config template) :
    ((∃ p, compile { config with trailingSlash := true } template = .ok p) ↔
      ∃ q, compile { config with trailingSlash := false } template = .ok q) ∧
    ∀ p q, compile { config with trailingSlash := true } template = .ok p →
      compile { config with trailingSlash := false } template = .ok q → q.program.root.ignoresEnd = true →
      ∀ path, p.Matches path ↔ q.Matches path ∨ ∃ front, path = front ++ ['/'] ∧ q.Matches front := by
  have hassemble : ∀ trailingSlash tokens,
      assemble { config with trailingSlash } [] tokens = assemble config [] tokens := by
    intro trailingSlash tokens
    refine assemble_congr (fun name constraint _ => ?_) []
    cases constraint <;> rfl
  simp only [compile_eq_ok_iff, hassemble]
  constructor
  · constructor
    · rintro ⟨_, tokens, source, _, htokens, hsource, hprogram, rfl⟩
      obtain ⟨q, hq, rfl⟩ := (parse_wrap_slash (hclosed tokens source htokens hsource)).1 hprogram
      exact ⟨_, tokens, source, q, htokens, hsource, hq, rfl⟩
    · rintro ⟨_, tokens, source, q, htokens, hsource, hq, rfl⟩
      have hp := (parse_wrap_slash (hclosed tokens source htokens hsource)).2 ⟨q, hq, rfl⟩
      exact ⟨_, tokens, source, _, htokens, hsource, hp, rfl⟩
  · rintro _ _ ⟨tokens, source, _, htokens, hsource, hprogram, rfl⟩ ⟨tokens', source', q, htokens', hsource', hq, rfl⟩ hends path
    obtain rfl := Except.ok.inj (htokens.symm.trans htokens')
    obtain rfl := Except.ok.inj (hsource.symm.trans hsource')
    obtain ⟨q', hq', rfl⟩ := (parse_wrap_slash (hclosed tokens source htokens hsource)).1 hprogram
    obtain rfl := Except.ok.inj (hq.symm.trans hq')
    simp only [matches_iff, reaches_withSlash hends]
    constructor
    · rintro ⟨hgroups, hreach | ⟨front, rfl, hreach⟩⟩
      · exact .inl ⟨hgroups, hreach⟩
      · exact .inr ⟨front, rfl, hgroups, hreach⟩
    · rintro (⟨hgroups, hreach⟩ | ⟨front, rfl, hgroups, hreach⟩)
      · exact ⟨hgroups, .inl hreach⟩
      · exact ⟨hgroups, .inr ⟨front, rfl, hreach⟩⟩

/-- a repetition of alternatives that takes slashes itself, as seldom as it can -/
theorem compile_tolerates_slash_alternatives :
    let template := "/(?i)(?:a|b/)+?".toList
    ∃ p q, compile { Config.standard with trailingSlash := true } template = .ok p ∧
      compile { Config.standard with trailingSlash := false } template = .ok q ∧
      ∀ path, p.Matches path ↔ q.Matches path ∨ ∃ front, path = front ++ ['/'] ∧ q.Matches front := by
  intro template
  have hclosed : ClosesOwn .standard template := by
    intro tokens source htokens hsource
    have htokens' : tokenize template = .ok [.literal template] := by decide +kernel
    obtain rfl := Except.ok.inj (htokens'.symm.trans htokens)
    have hsource' : assemble .standard [] [.literal template] = .ok template := by decide +kernel
    obtain rfl := Except.ok.inj (hsource'.symm.trans hsource)
    decide +kernel
  obtain ⟨hiff, hmatches⟩ := compile_tolerates_slash .standard hclosed
  have hends : (compile { Config.standard with trailingSlash := false } template).toOption.map
      (fun q => q.program.root.ignoresEnd) = some true := by decide +kernel
  cases hq : compile { Config.standard with trailingSlash := false } template with
  | error e =>
    rw [hq] at hends
    cases hends
  | ok q =>
    obtain ⟨p, hp⟩ := hiff.2 ⟨q, hq⟩
    rw [hq] at hends
    exact ⟨p, q, hp, rfl, hmatches p q hp hq (Option.some.inj hends)⟩

/-- where a slash is not tolerated: the source closes the group around it, and only what follows stands before the slash -/
theorem slash_tolerated_on_one_branch :
    let template := "/a)|(?:/b".toList
    let strict := { Config.standard with trailingSlash := false }
    (compile strict template).toOption.map (fun q => q.program.root.ignoresEnd) = some true ∧
      answer strict template "/a".toList = .ok (some []) ∧ answer .standard template "/a".toList = .ok (some []) ∧
      answer .standard template "/a/".toList = .ok none ∧ answer .standard template "/b/".toList = .ok (some []) := by
  intro template strict
  have hends : (compile strict template).toOption.map (fun q => q.program.root.ignoresEnd) = some true := by decide +kernel
  simp only [answer_eq_find?]
  exact ⟨hends, by decide +kernel, by decide +kernel, by decide +kernel, by decide +kernel⟩

end Pattern

end UriRouting
