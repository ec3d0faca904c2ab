/-
A template with plain text in front. The text is read into the first literal token, and so it comes first in the source of
the expression. Where the source without it is one sequence, the expression is that sequence with the characters in front.

Results:
- `tokenize_append`, `assemble_prefixed`: the tokens and the source of the longer template.
- `compile_append`: it compiles where the shorter one does, to the same groups and the longer sequence.
- `parameters?_append`: it matches what the shorter one matches with the text in front, and nothing else.
-/
import UriRouting.Proofs.Regex.Framing
import UriRouting.Proofs.Regex.Shift
import UriRouting.Proofs.Pattern.Failing
import UriRouting.Proofs.Template.Outline

namespace UriRouting

open Results

/-! ## Tokens -/

namespace Template

/-- the tokens with text in front of the first one, where that is a literal -/
def prefixed (front : Text) : List Token → List Token
  | .literal t :: tokens => .literal (front ++ t) :: tokens
  | tokens => tokens

theorem prefixed_nil (tokens : List Token) : prefixed [] tokens = tokens := by
  unfold prefixed
  split <;> rfl

theorem flush_append {front pending : Text} (h : front = [] ∨ pending ≠ []) (tokens : List Token) :
    flush (front ++ pending) tokens = prefixed front (flush pending tokens) := by
  rcases h with rfl | hp
  · rw [prefixed_nil, List.nil_append]
  · rw [flush_of_ne_nil hp, flush_of_ne_nil (by simp [hp])]
    rfl

/-- text in front of pending text goes into the first token, and positions are only told when something is wrong -/
theorem gather_append {front pending : Text} (h : front = [] ∨ pending ≠ []) {position : ℕ} {segments : List Segment}
    {tokens : List Token} (htokens : gather pending position segments = .ok tokens) (position' : ℕ) :
    gather (front ++ pending) position' segments = .ok (prefixed front tokens) := by
  induction segments generalizing front pending position position' tokens with
  | nil =>
    obtain rfl := Except.ok.inj htokens
    rw [gather, flush_append h]
  | cons segment segments ih =>
    have hmore : ∀ t, front = [] ∨ pending ++ t ≠ [] := fun t => h.imp id fun hp => by simp [hp]
    cases segment with
    | escape c =>
      have hrest := ih (hmore _) htokens (position' + (Segment.escape c).text.length)
      rwa [← List.append_assoc] at hrest
    | plain c =>
      have hrest := ih (hmore _) htokens (position' + (Segment.plain c).text.length)
      rwa [← List.append_assoc] at hrest
    | unclosed rest => simp [gather] at htokens
    | braces inner =>
      unfold gather at htokens ⊢
      split at htokens
      · rename_i hquantifier
        have hrest := ih (hmore _) htokens (position' + inner.length + 2)
        rw [← List.append_assoc] at hrest
        rw [if_pos hquantifier]
        exact hrest
      · rename_i hquantifier
        rw [if_neg hquantifier]
        split at htokens
        · simp at htokens
        · rename_i token htoken
          obtain ⟨more, hmore, rfl⟩ := map_eq_ok_iff.1 htokens
          -- behind a placeholder nothing is pending any more
          have hrest : gather [] (position' + inner.length + 2) segments = .ok more := by
            have hnone := ih (.inl (Eq.refl [])) hmore (position' + inner.length + 2)
            rwa [prefixed_nil, List.nil_append] at hnone
          simp only [hrest, Except.map, flush_append h]

/-- **Plain text in front of a template** goes into its first literal, when it starts with one -/
theorem tokenize_append {front : Text} (hfront : Regex.IsLiteral front) {c : Char} (hc : Regex.isPlain c = true)
    {rest : Text} {tokens : List Token} (htokens : tokenize (c :: rest) = .ok tokens) :
    tokenize (front ++ c :: rest) = .ok (prefixed front tokens) := by
  have hstart : segments (c :: rest) = [c].map Segment.plain ++ segments rest :=
    segments_text_append (fun d hd => List.mem_singleton.1 hd ▸ hc) rest
  rw [tokenize, hstart, gather_plain] at htokens
  rw [tokenize, segments_text_append hfront, hstart, gather_plain, gather_plain, List.nil_append]
  exact gather_append (.inr (by simp)) htokens _

/-- a template that starts with a plain character starts with a literal token -/
theorem tokenize_cons {c : Char} (hc : Regex.isPlain c = true) {rest : Text} {tokens : List Token}
    (htokens : tokenize (c :: rest) = .ok tokens) : ∃ t more, tokens = .literal (c :: t) :: more := by
  have hstart : segments (c :: rest) = [c].map Segment.plain ++ segments rest :=
    segments_text_append (fun d hd => List.mem_singleton.1 hd ▸ hc) rest
  rw [tokenize, hstart, gather_plain] at htokens
  exact gather_pending (List.cons_ne_nil c []) htokens

theorem names_prefixed (front : Text) (tokens : List Token) : names (prefixed front tokens) = names tokens := by
  unfold prefixed
  split <;> rfl

end Template

/-! ## Source -/

namespace Pattern

open Regex Template

theorem assemble_cons {config : Config} {seen : List Text} {c : Char} {t source : Text} {tokens : List Token}
    (h : assemble config seen (.literal (c :: t) :: tokens) = .ok source) : ∃ rest, source = c :: rest := by
  obtain ⟨rest, -, rfl⟩ := map_eq_ok_iff.1 h
  exact ⟨t ++ rest, rfl⟩

theorem assemble_prefixed {config : Config} {seen : List Text} {front t source : Text} {tokens : List Token}
    (h : assemble config seen (.literal t :: tokens) = .ok source) :
    assemble config seen (prefixed front (.literal t :: tokens)) = .ok (front ++ source) := by
  obtain ⟨rest, hrest, rfl⟩ := map_eq_ok_iff.1 h
  rw [prefixed, assemble, hrest, ← List.append_assoc]
  rfl

/-- the expression of a source that starts with a slash -/
theorem wrap_slash (rest : Text) :
    wrap Config.standard.trailingSlash ('/' :: rest) = "(?:".toList ++ '/' :: (rest ++ ")/?".toList) := rfl

/-! ## The expression -/

/-- what a machine has read as a sequence, behind other elements and with the tolerated slash -/
def sequenceProgram (front : List Expr) (n : Machine) : Program :=
  ⟨.cat (.ofSequence (front ++ n.sequence.elements.reverse)) toleratedSlash, n.groups, n.names, false⟩

/-- **Plain text and a sequence in the group around an expression** -/
theorem run_sequence {front rest : Text} (hfront : IsLiteral front) {n : Machine}
    (hn : Machine.start.untilClosed ('/' :: rest) = some (n, "/?".toList)) :
    Machine.start.run ("(?:".toList ++ (front ++ '/' :: rest)) =
      .ok ((n.closed (front.map .ofChar)).pushSettled toleratedSlash) := by
  let es := front.map Expr.ofChar
  let m := Machine.start.push (.ofChar '/')
  have hslash : Machine.start.step '/' rest = .ok (m, rest) := Machine.step_plain rfl (by decide) rest
  have hafter : m.untilClosed rest = some (n, "/?".toList) := by
    rw [← Machine.untilClosed_of_step rfl (by decide) hslash le_rfl]
    exact hn
  have hsequence : ((Machine.start.enter .plain).pushAll es).push (.ofChar '/') = m.within (.behind es) := by
    have helements : (Sequence.start.pushAll es).elements = es.reverse :=
      (Sequence.elements_pushAll .start es).trans (List.append_nil _)
    have hbranches : (Sequence.start.pushAll es).branches = [] := Sequence.branches_pushAll .start es
    simp only [Machine.pushAll, Machine.push, Machine.enter, Machine.start, Sequence.push, helements, hbranches]
    rfl
  calc
    Machine.start.run ("(?:".toList ++ (front ++ '/' :: rest)) =
        (Machine.start.enter .plain).run (front ++ '/' :: rest) := Machine.run_open _ _
    _ = ((Machine.start.enter .plain).pushAll es).run ('/' :: rest) := Machine.run_text rfl hfront _
    _ = (((Machine.start.enter .plain).pushAll es).push (.ofChar '/')).run rest :=
      Machine.run_of_step rfl (Machine.step_plain rfl (by decide) rest) le_rfl
    _ = (m.within (.behind es)).run rest := by rw [hsequence]
    _ = (n.closed es).run "/?".toList := Machine.run_behind es rfl hafter
    _ = .ok ((n.closed es).pushSettled toleratedSlash) := run_toleratedSlash rfl

/-- characters in front refer to no group -/
theorem references_sequenceProgram (front : Text) (n : Machine) :
    (sequenceProgram (front.map .ofChar) n).root.references = (sequenceProgram [] n).root.references := by
  have hfront : (front.map Expr.ofChar).flatMap Expr.references = [] := by
    rw [List.flatMap_map]
    exact List.flatMap_eq_nil_iff.2 fun _ _ => rfl
  simp only [sequenceProgram, Expr.references, Expr.references_ofSequence, List.flatMap_append, hfront, List.nil_append]

theorem finish_closed (front : Text) (n : Machine) :
    ((n.closed (front.map .ofChar)).pushSettled toleratedSlash).finish =
      if (sequenceProgram [] n).root.references.all (sequenceProgram [] n).knows then
        .ok (sequenceProgram (front.map .ofChar) n)
      else .error .badGroupReference := by
  rw [← references_sequenceProgram front n]
  rfl

/-- **A sequence is read behind plain text as it is read on its own** -/
theorem parse_append {front rest : Text} (hfront : IsLiteral front) {n : Machine}
    (hn : Machine.start.untilClosed ('/' :: rest) = some (n, "/?".toList)) {program : Program}
    (hprogram : parse ("(?:".toList ++ '/' :: rest) = .ok program) : program = sequenceProgram [] n ∧
      parse ("(?:".toList ++ (front ++ '/' :: rest)) = .ok (sequenceProgram (front.map .ofChar) n) := by
  have hown : Machine.start.run ("(?:".toList ++ '/' :: rest) =
      .ok ((n.closed (List.map .ofChar [])).pushSettled toleratedSlash) :=
    run_sequence (List.forall_mem_nil _ : IsLiteral []) hn
  rw [parse, hown] at hprogram
  simp only at hprogram
  rw [finish_closed []] at hprogram
  split at hprogram
  · rename_i hknown
    refine ⟨(Except.ok.inj hprogram).symm, ?_⟩
    rw [parse, run_sequence hfront hn]
    simp only
    rw [finish_closed, if_pos hknown]
  · cases hprogram

/-! ## The compiled template -/

/-- the source of the expression, with all that stands behind it, is one sequence: its parentheses balance, and no branch
ends outside them -/
def IsSequence (p : Pattern) : Prop :=
  (Machine.start.untilClosed (p.expression.drop "(?:".length)).map Prod.snd = some "/?".toList

instance (p : Pattern) : Decidable p.IsSequence := inferInstanceAs (Decidable (_ = _))

/-- a template of one sequence that starts with a slash, and the same behind plain text -/
theorem compile_append {front rest : Text} (hfront : IsLiteral front) (hslash : front.head? = some '/') {own : Pattern}
    (hown : compile .standard ('/' :: rest) = .ok own) (hsequence : own.IsSequence) : ∃ n joined,
      own.program = sequenceProgram [] n ∧ compile .standard (front ++ '/' :: rest) = .ok joined ∧
      joined.program = sequenceProgram (front.map .ofChar) n ∧ joined.names = own.names := by
  obtain ⟨tokens, source, program, htokens, hsource, hprogram, rfl⟩ := compile_eq_ok_iff.1 hown
  obtain ⟨t, more, rfl⟩ := tokenize_cons (by decide) htokens
  obtain ⟨after, rfl⟩ := assemble_cons hsource
  -- both sources start with a slash, so neither starts with flags
  obtain ⟨more', rfl⟩ : ∃ more', front = '/' :: more' := List.head?_eq_some_iff.1 hslash
  rw [wrap_slash] at hprogram
  obtain ⟨n, hn⟩ : ∃ n, Machine.start.untilClosed ('/' :: (after ++ ")/?".toList)) = some (n, "/?".toList) := by
    obtain ⟨⟨n, _⟩, hn, rfl⟩ := Option.map_eq_some_iff.1 hsequence
    exact ⟨n, hn⟩
  obtain ⟨rfl, hjoined⟩ := parse_append hfront hn hprogram
  refine ⟨n, _, rfl, compile_eq_ok_iff.2 ⟨_, _, _, tokenize_append hfront (by decide) htokens,
    assemble_prefixed hsource, ?_, rfl⟩, rfl, names_prefixed _ _⟩
  rw [List.cons_append, wrap_slash, List.append_assoc]
  exact hjoined

/-! ## Paths -/

theorem collect_congr {p p' : Program} (hnames : p.names = p'.names) (captures : Captures) (index : ℕ)
    (names : List Text) : collect p captures index names = collect p' captures index names := by
  induction names generalizing index with
  | nil => rfl
  | cons name names ih => simp only [collect, hnames, ih]

/-- plain text and a sequence lead where the sequence leads from behind the text -/
theorem outcomes_sequenceProgram (front : Text) (n : Machine) (s : State) :
    (sequenceProgram (front.map .ofChar) n).outcomes (sequenceProgram (front.map .ofChar) n).root .forward s =
      ((sequenceProgram [] n).outcomes (.ofSequence (front.map .ofChar)) .forward s).flatMap
        ((sequenceProgram [] n).outcomes (sequenceProgram [] n).root .forward) := by
  have hnames : (sequenceProgram (front.map .ofChar) n).names = (sequenceProgram [] n).names := rfl
  have hascii : (sequenceProgram (front.map .ofChar) n).asciiOnly = (sequenceProgram [] n).asciiOnly := rfl
  have hcongr := Program.outcomes_congr hnames hascii
  have hroot : ∀ es, (sequenceProgram es n).root =
      .cat (.ofSequence (es ++ n.sequence.elements.reverse)) toleratedSlash := fun _ => rfl
  have hown : (sequenceProgram [] n).outcomes (sequenceProgram [] n).root .forward = fun t =>
      ((sequenceProgram [] n).outcomes (.ofSequence n.sequence.elements.reverse) .forward t).flatMap
        ((sequenceProgram [] n).outcomes toleratedSlash .forward) := by
    funext t
    rw [hroot, Program.outcomes, List.nil_append]
  rw [hcongr, hroot, Program.outcomes, outcomes_ofSequence_append, List.flatMap_assoc, hown]

/-- plain text in front of a path leads to the path, shifted -/
theorem outcomes_front {p : Program} (hascii : p.asciiOnly = false) (front path : Text) : ∃ t,
    p.outcomes (.ofSequence (front.map .ofChar)) .forward (.start (front ++ path)) = [t] ∧
      Shifted front (.start path) t := by
  have htext := outcomes_text hascii front (.start (front ++ path))
  have hstart : (State.start (front ++ path)).after = front ++ path := rfl
  rw [hstart, if_pos (List.isPrefixOf_iff_prefix.2 (List.prefix_append _ _)), List.drop_left] at htext
  obtain ⟨t, ts, ht, hnil, hts⟩ := List.forall₂_cons_left_iff.1 htext
  obtain rfl := List.forall₂_nil_left_iff.1 hnil
  refine ⟨t, hts, ?_, ht.1, ht.2⟩
  have hmem : t ∈ p.outcomes (.ofSequence (front.map .ofChar)) .forward (.start (front ++ path)) := by
    rw [hts]
    exact List.mem_cons_self
  have hwhole : t.before.reverse ++ t.after = front ++ path := (Program.onward_of_mem_outcomes _ _ _ t hmem).whole
  rw [ht.1] at hwhole
  exact List.reverse_eq_iff.1 (List.append_cancel_right hwhole)

/-- **A path that does not start with the plain text is not matched** -/
theorem fullMatch_eq_none {front : Text} (n : Machine) {path : Text} (h : ¬front <+: path) :
    (sequenceProgram (front.map .ofChar) n).fullMatch path = none := by
  have htext := outcomes_text (p := sequenceProgram [] n) rfl front (.start path)
  have hstart : (State.start path).after = path := rfl
  rw [hstart, if_neg (fun hp => h (List.isPrefixOf_iff_prefix.1 hp))] at htext
  rw [Program.fullMatch_eq_find?, outcomes_sequenceProgram, List.forall₂_nil_left_iff.1 htext]
  rfl

/-- **Behind the plain text, a sequence that stays within the text matches as it does on its own** -/
theorem fullMatch_append {n : Machine} (h : (sequenceProgram [] n).root.staysWithin .forward 0 = true)
    (front path : Text) : (sequenceProgram (front.map .ofChar) n).fullMatch (front ++ path) =
      (sequenceProgram [] n).fullMatch path := by
  obtain ⟨t, ht, hshift⟩ := outcomes_front (p := sequenceProgram [] n) rfl front path
  have hrel := rel_find? (f := fun s => s.after.isEmpty) (g := fun s => s.after.isEmpty)
    (Program.shifted_outcomes (p := sequenceProgram [] n) _ h (Nat.zero_le _) hshift) fun u v huv => by rw [huv.after]
  rw [Program.fullMatch_eq_find?, Program.fullMatch_eq_find?, outcomes_sequenceProgram, ht, List.flatMap_singleton]
  generalize List.find? _ _ = found at hrel ⊢
  generalize List.find? _ _ = found' at hrel ⊢
  cases hrel with
  | none => rfl
  | some huv => exact congrArg some huv.captures

/-- no assertion of the expression looks at what may stand in front of the path -/
def StaysWithin (p : Pattern) : Prop := p.program.root.staysWithin .forward 0 = true

instance (p : Pattern) : Decidable p.StaysWithin := inferInstanceAs (Decidable (_ = _))

/-- **What a template with plain text in front matches**: no path without that text, and behind it what the template
matches on its own, with the same answer, where that stays within the text -/
theorem parameters?_append {front rest : Text} (hfront : IsLiteral front) (hslash : front.head? = some '/')
    {own : Pattern} (hown : compile .standard ('/' :: rest) = .ok own) (hsequence : own.IsSequence) : ∃ joined,
      compile .standard (front ++ '/' :: rest) = .ok joined ∧
      (∀ path, ¬front <+: path → joined.parameters? path = .ok none) ∧
      (own.StaysWithin → ∀ path, joined.parameters? (front ++ path) = own.parameters? path) := by
  obtain ⟨n, joined, hprogram, hjoined, hlonger, hnames⟩ := compile_append hfront hslash hown hsequence
  refine ⟨joined, hjoined, ?_, ?_⟩
  · intro path hpath
    rw [parameters?, hlonger, fullMatch_eq_none n hpath]
  · intro hstays path
    rw [StaysWithin, hprogram] at hstays
    rw [parameters?, parameters?, hlonger, hprogram, hnames, fullMatch_append hstays]
    have hcollect : ∀ captures index names, collect (sequenceProgram (front.map .ofChar) n) captures index names =
        collect (sequenceProgram [] n) captures index names := collect_congr rfl
    simp only [hcollect]

end Pattern

end UriRouting
