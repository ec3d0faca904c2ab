/-
The parameters of a simple template. The search for a match meets the readings of a path in their order, the longer value
of an earlier placeholder first, and stops at the first that leaves nothing, or a slash that is tolerated.

Results:
- `outcomes_elements`: the outcomes of the expression are the readings, one for one and in order.
- `parameters?_eq`: the parameters are those of the first reading that may end where it does.
- `parameters?_longest`: they are the values of the decomposition whose lengths are lexicographically the greatest, and
  there are none exactly when there is no decomposition.
-/
import UriRouting.Proofs.Regex.FullMatch
import UriRouting.Proofs.Pattern.Compiled

namespace UriRouting.Pattern

open Regex Template Results

/-! ## Sequences and characters -/

theorem outcomes_ofSequence_cons (p : Program) (e : Expr) (es : List Expr) (s : State) :
    p.outcomes (.ofSequence (e :: es)) .forward s =
      (p.outcomes e .forward s).flatMap (p.outcomes (.ofSequence es) .forward) := by
  cases es with
  | cons f es => rw [Expr.ofSequence, Program.outcomes]
  | nil =>
    have hempty : p.outcomes (.ofSequence []) .forward = fun t => [t] := rfl
    rw [hempty, List.flatMap_singleton', Expr.ofSequence]

theorem outcomes_ofSequence_append (p : Program) (es fs : List Expr) (s : State) :
    p.outcomes (.ofSequence (es ++ fs)) .forward s =
      (p.outcomes (.ofSequence es) .forward s).flatMap (p.outcomes (.ofSequence fs) .forward) := by
  induction es generalizing s with
  | nil => exact (List.flatMap_singleton _ _).symm
  | cons e es ih =>
    rw [List.cons_append, outcomes_ofSequence_cons, outcomes_ofSequence_cons, List.flatMap_assoc]
    exact List.flatMap_congr fun t _ => ih t

/-- what a class leads to: past one character that it accepts -/
theorem step?_forward (p : Program) (test : CharTest) (s : State) :
    (s.after = [] ∧ p.step? test .forward s = none) ∨
    ∃ c t, s.after = c :: t.after ∧ t.captures = s.captures ∧
      p.step? test .forward s = if test.accepts p.asciiOnly c then some t else none := by
  obtain ⟨before, after, place, cs, hp⟩ := s
  cases after with
  | nil => exact .inl ⟨rfl, rfl⟩
  | cons c rest => exact .inr ⟨c, ⟨c :: before, rest, place + 1, cs, by simp [hp]⟩, rfl, rfl, rfl⟩

theorem accepts_literal {c d : Char} : CharTest.accepts false (.literal c.toNat false) d = (d == c) := by
  by_cases hd : d = c
  · subst hd
    simp [CharTest.accepts, isVariant]
  · have hval : d.toNat ≠ c.toNat := fun h => hd (Char.toNat_inj.1 h)
    simp [CharTest.accepts, isVariant, variants, hd, hval, hval.symm]

/-- plain text leads past itself, and nowhere where it does not stand -/
theorem outcomes_text {p : Program} (hascii : p.asciiOnly = false) (l : Text) (s : State) :
    List.Forall₂ (fun rest t => t.after = rest ∧ t.captures = s.captures)
      (if l.isPrefixOf s.after then [s.after.drop l.length] else [])
      (p.outcomes (.ofSequence (l.map .ofChar)) .forward s) := by
  induction l generalizing s with
  | nil => exact .cons ⟨rfl, rfl⟩ .nil
  | cons c l ih =>
    rw [List.map_cons, outcomes_ofSequence_cons, Expr.ofChar, Program.outcomes]
    rcases step?_forward p (.literal c.toNat false) s with ⟨hs, hstep⟩ | ⟨d, t, hs, ht, hstep⟩
    · rw [hstep, hs]
      exact .nil
    · rw [hstep, hs, hascii, accepts_literal]
      by_cases hd : d = c
      · subst hd
        simp only [beq_self_eq_true, if_true, Option.toList_some, List.flatMap_cons, List.flatMap_nil, List.append_nil,
          List.isPrefixOf, Bool.true_and, List.length_cons, List.drop_succ_cons]
        exact (ih t).imp fun _ _ h => ⟨h.1, h.2.trans ht⟩
      · have hd' : (d == c) = false := beq_eq_false_iff_ne.2 hd
        have hc' : (c == d) = false := beq_eq_false_iff_ne.2 (Ne.symm hd)
        simp only [hd', hc', Bool.false_eq_true, if_false, Option.toList_none, List.flatMap_nil, List.isPrefixOf,
          Bool.false_and]
        exact .nil

/-! ## Runs -/

/-- the state is past a value taken off the front of the text -/
def Past (s : State) (taken : Text × Text) (t : State) : Prop :=
  s.after = taken.1 ++ t.after ∧ t.after = taken.2 ∧ t.captures = s.captures

/-- one character, and then what comes behind it -/
theorem forall₂_past {p : Program} (hascii : p.asciiOnly = false) {test : CharTest} {s t : State} {c : Char}
    (hs : s.after = c :: t.after) (ht : t.captures = s.captures)
    (hstep : p.step? test .forward s = if test.accepts p.asciiOnly c then some t else none)
    {more : List (Text × Text)} {f : State → List State} (h : List.Forall₂ (Past t) more (f t)) :
    List.Forall₂ (Past s) (past (test.accepts false) c more) ((p.outcomes (.char test) .forward s).flatMap f) := by
  rw [Program.outcomes, hstep, hascii, past]
  by_cases hc : test.accepts false c = true
  · simp only [hc, if_true, Option.toList_some, List.flatMap_cons, List.flatMap_nil, List.append_nil,
      List.forall₂_map_left_iff]
    refine h.imp fun taken u hu => ⟨?_, hu.2.1, hu.2.2.trans ht⟩
    rw [hs, hu.1]
    rfl
  · simp only [hc, Bool.false_eq_true, if_false, Option.toList_none, List.flatMap_nil]
    exact .nil

/-- **A run of a class leads past what it takes**, the longest first -/
theorem outcomes_run {p : Program} (hascii : p.asciiOnly = false) (least : ℕ) (test : CharTest) (s : State) :
    List.Forall₂ (Past s) (takes (test.accepts false) least s.after)
      (p.outcomes (.run least test) .forward s) := by
  generalize hafter : s.after = text
  induction text generalizing least s with
  | nil =>
    have hstep : p.outcomes (.char test) .forward s = [] := by
      rcases step?_forward p test s with ⟨-, hstep⟩ | ⟨c, t, hs, -⟩
      · rw [Program.outcomes, hstep]
        rfl
      · simp [hs] at hafter
    rw [Expr.run, Program.outcomes]
    cases least with
    | succ least =>
      rw [Repetition.iterate_succ, hstep]
      exact .nil
    | zero =>
      rw [Repetition.iterate_zero_none, Repetition.unlimited, hstep]
      exact .cons ⟨by rw [hafter]; rfl, hafter, rfl⟩ .nil
  | cons c rest ih =>
    rcases step?_forward p test s with ⟨hs, -⟩ | ⟨d, t, hs, ht, hstep⟩
    · simp [hs] at hafter
    · obtain ⟨rfl, hrest⟩ := List.cons.inj (hs.symm.trans hafter)
      rw [Expr.run, Program.outcomes]
      cases least with
      | succ least =>
        rw [Repetition.iterate_succ, takes]
        exact forall₂_past hascii hs ht hstep (ih least t hrest)
      | zero =>
        rw [Repetition.iterate_zero_none, Repetition.unlimited, takes]
        refine List.rel_append (forall₂_past hascii hs ht hstep ?_) (.cons ⟨?_, hafter, rfl⟩ .nil)
        · have hroom : Direction.forward.room t < Direction.forward.room s := by
            simp only [Direction.room, hs, List.length_cons]
            omega
          have := ih 0 t hrest
          rw [Expr.run, Program.outcomes, Repetition.iterate_zero_none] at this
          rwa [if_pos hroom]
        · rfl

/-! ## Readings -/

/-- the state has the values of a reading in the groups from one on, and stands before what the reading leaves; the
groups below are as they were -/
structure Holds (n : ℕ) (s : State) (reading : List Text × Text) (t : State) : Prop where
  after : t.after = reading.2
  earlier : ∀ k ≤ n, t.captures.text? k = s.captures.text? k
  values : ∀ i v, reading.1[i]? = some v → t.captures.text? (n + 1 + i) = some v

theorem text?_capture {s t : State} {v : Text} (h : s.after = v ++ t.after) (n k : ℕ) :
    (t.capture n .forward s).captures.text? k = if k = n then some v else t.captures.text? k := by
  have htext : (Direction.forward.taken s t).text = v := by
    simp [Direction.taken, Capture.text, h]
  rw [State.capture, Captures.text?_set, htext]

/-- **The outcomes of the elements are the readings of the text**, one for one and in order -/
theorem outcomes_elements {p : Program} (hascii : p.asciiOnly = false) {tokens : List Token}
    (hsimple : ∀ t ∈ tokens, t.IsSimple) (n : ℕ) (s : State) :
    List.Forall₂ (Holds n s) (readings tokens s.after)
      (p.outcomes (.ofSequence (elements n tokens)) .forward s) := by
  induction tokens generalizing n s with
  | nil => exact .cons ⟨rfl, fun _ _ => rfl, by simp⟩ .nil
  | cons token tokens ih =>
    obtain ⟨htoken, htokens⟩ := List.forall_mem_cons.1 hsimple
    cases token with
    | literal l =>
      rw [elements, outcomes_ofSequence_append]
      have htext := outcomes_text hascii l s
      unfold readings
      split
      · rename_i hl
        rw [if_pos hl] at htext
        obtain ⟨t, u, ht, hu, hlist⟩ := List.forall₂_cons_left_iff.1 htext
        rw [hlist, List.forall₂_nil_left_iff.1 hu, List.flatMap_cons, List.flatMap_nil, List.append_nil, ← ht.1]
        exact (ih htokens n t).imp fun r u hr => ⟨hr.after, fun k hk => by rw [hr.earlier k hk, ht.2], hr.values⟩
      · rename_i hl
        rw [if_neg hl] at htext
        rw [List.forall₂_nil_left_iff.1 htext]
        exact .nil
    | parameter name constraint =>
      obtain ⟨slot, hslot⟩ := Option.isSome_iff_exists.1 htoken
      have hrun := outcomes_run hascii slot.least slot.test s
      rw [elements, readings, outcomes_ofSequence_append, hslot]
      simp only [Option.toList_some, List.map_cons, List.map_nil, Expr.ofSequence, Program.outcomes, List.flatMap_map]
      apply List.rel_flatMap hrun
      intro taken t ht
      rw [List.forall₂_map_left_iff]
      have hrest := ih htokens (n + 1) (t.capture (n + 1) .forward s)
      rw [show (t.capture (n + 1) .forward s).after = taken.2 from ht.2.1] at hrest
      apply hrest.imp
      intro r u hr
      refine ⟨hr.after, ?_, ?_⟩
      · intro k hk
        rw [hr.earlier k (by omega), text?_capture ht.1, if_neg (by omega), ht.2.2]
      · intro i v hv
        cases i with
        | zero =>
          rw [Nat.add_zero, hr.earlier (n + 1) le_rfl, text?_capture ht.1, if_pos rfl]
          exact hv
        | succ i =>
          rw [show n + 1 + (i + 1) = n + 1 + 1 + i by omega]
          exact hr.values i v hv

/-! ## The match -/

/-- the end of a reading: nothing left, or a slash that is tolerated -/
def ends (trailingSlash : Bool) (rest : Text) : Bool := rest.isEmpty || trailingSlash && rest == ['/']

theorem map_find?_eq {α β : Type} (test : α → Bool) (f : α → β) (l : List α) :
    (l.find? test).map f = l.findSome? fun x => if test x then some (f x) else none := by
  induction l with
  | nil => rfl
  | cons x l ih =>
    rw [List.find?_cons, List.findSome?_cons]
    by_cases hx : test x = true
    · simp [hx]
    · simp [hx, ih]

/-- past the tolerated slash, to the end -/
theorem find?_toleratedSlash {p : Program} (hascii : p.asciiOnly = false) (t : State) :
    ((p.outcomes toleratedSlash .forward t).find? (·.after.isEmpty)).map State.captures =
      if ends true t.after then some t.captures else none := by
  have hiterate : p.outcomes toleratedSlash .forward t = (p.outcomes (.ofChar '/') .forward t) ++ [t] := by
    simp [toleratedSlash, Program.outcomes, Repetition.iterate_zero_some, Repetition.upTo, Repetition.order]
  rw [hiterate, Expr.ofChar, Program.outcomes]
  rcases step?_forward p (.literal '/'.toNat false) t with ⟨ht, hstep⟩ | ⟨c, u, ht, hu, hstep⟩
  · rw [hstep]
    simp [ends, ht]
  · rw [hstep, hascii, accepts_literal]
    by_cases hc : c = '/'
    · cases hrest : u.after with
      | nil => simp [ends, ht, hc, hu, hrest]
      | cons d rest => simp [ends, ht, hc, hrest]
    · simp [ends, ht, hc]

theorem fullMatch_simple (trailingSlash : Bool) (tokens : List Token) (path : Text) :
    (simpleProgram trailingSlash tokens).fullMatch path =
      (((simpleProgram trailingSlash tokens).outcomes (.ofSequence (elements 0 tokens)) .forward (.start path)).find?
        fun t => ends trailingSlash t.after).map State.captures := by
  have hroot : (simpleProgram trailingSlash tokens).root = root trailingSlash tokens := rfl
  rw [Program.fullMatch_eq_find?, hroot, root]
  cases trailingSlash with
  | false => simp [ends]
  | true =>
    -- behind each outcome of the elements the slash is tried, and then done without
    rw [if_pos rfl, Program.outcomes, List.find?_flatMap, List.map_findSome?, map_find?_eq]
    apply Backtrack.findSome?_congr
    intro t _
    exact find?_toleratedSlash rfl t

/-- two lists whose entries pass a test alike in pairs: the first ones that pass correspond -/
theorem rel_find? {α β : Type} {R : α → β → Prop} {f : α → Bool} {g : β → Bool} {xs : List α} {ys : List β}
    (h : List.Forall₂ R xs ys) (hfg : ∀ x y, R x y → f x = g y) : Option.Rel R (xs.find? f) (ys.find? g) := by
  induction h with
  | nil => exact .none
  | @cons x y xs ys hxy _ ih =>
    rw [List.find?_cons, List.find?_cons, hfg x y hxy]
    by_cases hy : g y = true
    · simp only [hy]
      exact .some hxy
    · simp only [hy]
      exact ih

/-- captures that hold the values in order give them to the names in order -/
theorem collect_eq {program : Program} {captures : Captures} {m : ℕ} (hnames : program.names = groups m)
    {names values : List Text} {n : ℕ} (hlength : names.length = values.length) (hn : n + names.length = m)
    (hvalues : ∀ i v, values[i]? = some v → captures.text? (n + 1 + i) = some v) :
    collect program captures n names = .ok (names.zip values) := by
  induction names generalizing n values with
  | nil => rfl
  | cons name names ih =>
    cases values with
    | nil => simp at hlength
    | cons v values =>
      have hlookup : program.names.lookup (groupName n) = some (n + 1) := by
        rw [hnames, lookup_groups, if_pos]
        rw [← hn, List.length_cons]
        omega
      have hv : captures.text? (n + 1) = some v := hvalues 0 v rfl
      have hrest : collect program captures (n + 1) names = .ok (names.zip values) := by
        apply ih
        · simpa using hlength
        · rw [List.length_cons] at hn
          omega
        · intro i w hw
          rw [show n + 1 + 1 + i = n + 1 + (i + 1) by omega]
          exact hvalues (i + 1) w hw
      simp only [collect, hlookup, hrest, hv]
      rfl

/-- **The parameters are those of the first reading that may end where it does** -/
theorem parameters?_eq {config : Config} (hbare : config.bareConstraint = Config.standard.bareConstraint)
    {template : Text} {tokens : List Token} (htokens : tokenize template = .ok tokens)
    (hsimple : ∀ t ∈ tokens, t.IsSimple) {p : Pattern} (hp : compile config template = .ok p) (path : Text) :
    p.parameters? path = .ok (((readings tokens path).find? fun r => ends config.trailingSlash r.2).map
      fun r => (Template.names tokens).zip r.1) := by
  obtain ⟨hprogram, hnames, -⟩ := program_of_compile hbare htokens hsimple hp
  have hrel := rel_find? (f := fun r => ends config.trailingSlash r.2) (g := fun t => ends config.trailingSlash t.after)
    (outcomes_elements (p := simpleProgram config.trailingSlash tokens) rfl hsimple 0 (.start path))
    fun r t h => by rw [h.after]
  have hstart : (State.start path).after = path := rfl
  rw [hstart] at hrel
  rw [parameters?, hprogram, hnames, fullMatch_simple]
  generalize List.find? _ (Program.outcomes ..) = found at hrel ⊢
  cases hr : (readings tokens path).find? fun r => ends config.trailingSlash r.2 with
  | none =>
    rw [hr] at hrel
    cases hrel
    rfl
  | some r =>
    rw [hr] at hrel
    obtain ⟨front, hwrites, -⟩ := mem_readings.1 (List.mem_of_find?_eq_some hr)
    cases hrel with
    | some hholds =>
      have hgroups : (simpleProgram config.trailingSlash tokens).names = groups (Template.names tokens).length := rfl
      have hcollect := collect_eq hgroups hwrites.length_eq.symm (Nat.zero_add _) hholds.values
      simp only [Option.map_some, hcollect]
      rfl

/-! ## The greatest decomposition -/

/-- the values decompose the path, or the path without the last slash where that is tolerated -/
def Decomposes (trailingSlash : Bool) (tokens : List Token) (path : Text) (values : List Text) : Prop :=
  Writes tokens values path ∨ trailingSlash = true ∧ ∃ shorter, path = shorter ++ ['/'] ∧ Writes tokens values shorter

theorem exists_reading_iff {trailingSlash : Bool} {tokens : List Token} {path : Text} {values : List Text} :
    (∃ rest, (values, rest) ∈ readings tokens path ∧ ends trailingSlash rest = true) ↔
      Decomposes trailingSlash tokens path values := by
  refine ⟨?_, ?_⟩
  · intro h
    obtain ⟨rest, hr, he⟩ := h
    obtain ⟨front, hw, rfl⟩ := mem_readings.1 hr
    simp only [ends, Bool.or_eq_true, List.isEmpty_iff, Bool.and_eq_true, beq_iff_eq] at he
    rcases he with rfl | ⟨hslash, rfl⟩
    · rw [List.append_nil]
      exact .inl hw
    · exact .inr ⟨hslash, front, rfl, hw⟩
  · intro h
    rcases h with hw | ⟨hslash, shorter, rfl, hw⟩
    · exact ⟨[], mem_readings.2 ⟨path, hw, (List.append_nil _).symm⟩, rfl⟩
    · exact ⟨['/'], mem_readings.2 ⟨shorter, hw, rfl⟩, by simp [ends, hslash]⟩

/-- what is found in a descending list is greater than all else that passes -/
theorem lt_of_find?_eq_some {α β : Type} [Preorder β] {measure : α → β} {test : α → Bool} {l : List α} {x y : α}
    (hl : l.Pairwise fun a b => measure b < measure a) (hx : l.find? test = some x) (hy : y ∈ l)
    (htest : test y = true) : y = x ∨ measure y < measure x := by
  induction l with
  | nil => simp at hx
  | cons z l ih =>
    obtain ⟨hz, hl⟩ := List.pairwise_cons.1 hl
    rw [List.find?_cons] at hx
    rcases List.mem_cons.1 hy with rfl | hy
    · rw [htest] at hx
      exact .inl (Option.some.inj hx)
    · by_cases hzt : test z = true
      · rw [hzt] at hx
        exact .inr (Option.some.inj hx ▸ hz y hy)
      · simp only [hzt] at hx
        exact ih hl hx hy

/-- **The parameters of a simple template are the values of the greatest decomposition.** A path has none exactly when
neither it nor, where that is tolerated, the path without its last slash is the literals and values in order. Else the
parameters are the values of one decomposition, and all others have lengths that are lexicographically less. -/
theorem parameters?_longest {config : Config} (hbare : config.bareConstraint = Config.standard.bareConstraint)
    {template : Text} {tokens : List Token} (htokens : tokenize template = .ok tokens)
    (hsimple : ∀ t ∈ tokens, t.IsSimple) {p : Pattern} (hp : compile config template = .ok p) (path : Text) :
    (p.parameters? path = .ok none ∧ ∀ values, ¬Decomposes config.trailingSlash tokens path values) ∨
    ∃ values, p.parameters? path = .ok (some ((Template.names tokens).zip values)) ∧
      Decomposes config.trailingSlash tokens path values ∧
      ∀ other, Decomposes config.trailingSlash tokens path other → other ≠ values →
        other.map List.length < values.map List.length := by
  rw [parameters?_eq hbare htokens hsimple hp]
  cases hr : (readings tokens path).find? fun r => ends config.trailingSlash r.2 with
  | none =>
    refine .inl ⟨rfl, ?_⟩
    intro values hd
    obtain ⟨rest, hmem, hends⟩ := exists_reading_iff.2 hd
    exact List.find?_eq_none.1 hr _ hmem hends
  | some r =>
    refine .inr ⟨r.1, rfl, exists_reading_iff.1 ⟨r.2, List.mem_of_find?_eq_some hr, ?_⟩, ?_⟩
    · exact List.find?_some (p := fun r : List Text × Text => ends config.trailingSlash r.2) hr
    · intro other hd hne
      obtain ⟨rest, hmem, hends⟩ := exists_reading_iff.2 hd
      rcases lt_of_find?_eq_some (readings_descending tokens path) hr hmem hends with rfl | hlt
      · exact absurd rfl hne
      · exact hlt

/-- a splat behind a run of letters, which may take the last slash or leave it -/
theorem parameters?_longest_splat : ∃ p tokens,
    compile .standard "/\x7bx: :alpha:+\x7d\x7by: .*\x7d".toList = .ok p ∧
    tokens = [.literal ['/'], .parameter ['x'] (some ":alpha:+".toList), .parameter ['y'] (some ".*".toList)] ∧
    ((p.parameters? "/ab1/".toList = .ok none ∧ ∀ values, ¬Decomposes true tokens "/ab1/".toList values) ∨
    ∃ values, p.parameters? "/ab1/".toList = .ok (some ((Template.names tokens).zip values)) ∧
      Decomposes true tokens "/ab1/".toList values ∧
      ∀ other, Decomposes true tokens "/ab1/".toList other → other ≠ values →
        other.map List.length < values.map List.length) := by
  obtain ⟨p, hp⟩ := exists_of_isOk (r := compile .standard "/\x7bx: :alpha:+\x7d\x7by: .*\x7d".toList)
    (by decide +kernel)
  exact ⟨p, _, hp, rfl,
    parameters?_longest rfl (by decide +kernel) (by decide +kernel) hp "/ab1/".toList⟩

example : ((readings [.literal ['/'], .parameter ['x'] (some ":alpha:+".toList), .parameter ['y'] (some ".*".toList)]
    "/ab1/".toList).find? fun r => ends true r.2) = some (["ab".toList, "1/".toList], []) := by decide +kernel

end UriRouting.Pattern
