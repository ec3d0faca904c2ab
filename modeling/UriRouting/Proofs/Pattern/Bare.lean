/-
Bare placeholders. The group of a bare placeholder stands in unrestricted source: it may be repeated, skipped, entered again on
another way, looked ahead or behind for, and read under any flags. The parameter it gives is still a part of one segment of the
path, as long as no other group bears its name.

A template cannot write such a name without the mark that all of them start with, but under the verbose flag a name may be
spelled with blanks or comments in it. That is what `OwnsName` leaves out, and `bare_takes_slash` shows that it has to.

Results:
- `mem_collect`: where the parameters come from.
- `isSegment_of_bare`: every group of a bare placeholder's name holds a segment.
- `parameters?_bare`: a bare placeholder's parameter is a part of the path, not empty and without slashes.
-/
import UriRouting.Proofs.Pattern.Failing
import UriRouting.Proofs.Pattern.Reserved
import UriRouting.Proofs.Regex.Captured

namespace UriRouting.Pattern

open Regex Template Results

/-! ## Parameters -/

variable {program : Program} {captures : Captures} {index : ℕ} {names : List Text} {params : List (Text × Text)}

theorem collect_cons_ok {name : Text} (h : collect program captures index (name :: names) = .ok params) :
    ∃ k more, program.names.lookup (groupName index) = some k ∧ collect program captures (index + 1) names = .ok more ∧
      params = (captures.text? k).toList.map (name, ·) ++ more := by
  rw [collect] at h
  split at h
  · cases h
  · rename_i k hk
    obtain ⟨more, hmore, rfl⟩ := map_eq_ok_iff.1 h
    refine ⟨k, more, hk, hmore, ?_⟩
    cases captures.text? k <;> rfl

/-- the parameters are given under some of the names, in their order -/
theorem sublist_of_collect (h : collect program captures index names = .ok params) : (params.map Prod.fst).Sublist names := by
  induction names generalizing index params with
  | nil => exact Except.ok.inj h ▸ List.Sublist.slnil
  | cons name names ih =>
    obtain ⟨k, more, -, hmore, rfl⟩ := collect_cons_ok h
    cases captures.text? k with
    | none => exact (ih hmore).cons name
    | some v => exact (ih hmore).cons_cons name

/-- a parameter is what the group of its placeholder has captured -/
theorem mem_collect (h : collect program captures index names = .ok params) {n v : Text} (hmem : (n, v) ∈ params) :
    ∃ i k, names[i]? = some n ∧ program.names.lookup (groupName (index + i)) = some k ∧ captures.text? k = some v := by
  induction names generalizing index params with
  | nil =>
    obtain rfl := Except.ok.inj h
    exact absurd hmem List.not_mem_nil
  | cons name names ih =>
    obtain ⟨k, more, hk, hmore, rfl⟩ := collect_cons_ok h
    rcases List.mem_append.1 hmem with hmem | hmem
    · obtain ⟨w, hw, hpair⟩ := List.mem_map.1 hmem
      obtain ⟨rfl, rfl⟩ := Prod.mk.inj hpair
      exact ⟨0, k, rfl, hk, Option.mem_toList.1 hw⟩
    · obtain ⟨i, k', hi, hk', hv⟩ := ih hmore hmem
      rw [Nat.add_assoc, Nat.add_comm 1] at hk'
      exact ⟨i + 1, k', hi, hk', hv⟩

/-! ## Placeholders -/

theorem getElem?_names {tokens : List Token} {i : ℕ} {n : Text} {constraint : Option Text}
    (h : (placeholders tokens)[i]? = some (.parameter n constraint)) : (Template.names tokens)[i]? = some n := by
  induction tokens generalizing i with
  | nil => cases h
  | cons token tokens ih =>
    cases token with
    | literal t => exact ih h
    | parameter m k =>
      cases i with
      | zero => exact congrArg (·.bind Token.name?) h
      | succ i => exact ih h

/-- wherever the expression gives a group the name of the i-th placeholder's, the name is written as it is -/
def OwnsName (p : Pattern) (i : ℕ) : Prop := ∀ x ∈ Machine.start.namings p.expression, x.1 = groupName i → x.1 <+: x.2

instance (p : Pattern) (i : ℕ) : Decidable (p.OwnsName i) := inferInstanceAs (Decidable (∀ x ∈ _, _))

theorem groupName_counts {i : ℕ} : ∀ c ∈ groupName i, isBlank c = false ∧ c ∉ ['#', ')', '>'] := by
  have hall : ∀ c ∈ "_perch_p0123456789".toList, isBlank c = false ∧ c ∉ ['#', ')', '>'] :=
    Text.forall_mem_of_all (by decide)
  exact fun c hc => hall c (mem_groupName hc)

variable {config : Config} {template : Text} {p : Pattern}

/-- **Where the name of a bare placeholder's group is given, a segment follows** -/
theorem segment_of_naming (hbare : config.bareConstraint = Config.standard.bareConstraint) (hplain : ¬mark <:+: template)
    (hp : compile config template = .ok p) {i : ℕ} {n : Text} (hi : (placeholders p.tokens)[i]? = some (.parameter n none))
    (howns : p.OwnsName i) {x : Text × Text} (hx : x ∈ Machine.start.namings p.expression) (hname : x.1 = groupName i) :
    ∃ rest, x.2 = x.1 ++ '>' :: ("[^/]+)".toList ++ rest) := by
  obtain ⟨⟨verbose, hread⟩, hsuffix⟩ := Machine.of_mem_namings hx
  have hmark : mark <+: x.2 := (hname ▸ List.prefix_append mark _ : mark <+: x.1).trans (howns x hx hname)
  have hunmarked : ¬mark <:+: config.bareConstraint := by
    rw [hbare]
    decide
  obtain ⟨j, m, constraint, b, rest, hj, hb, hsource⟩ := marked_of_compile hunmarked hplain hp hsuffix hmark
  -- the name that is read there is that of the placeholder whose group stands there
  rw [hsource, Machine.groupText_of_counts groupName_counts, Nat.zero_add] at hread
  obtain rfl : i = j := groupName_injective (hname.symm.trans hread)
  obtain ⟨rfl, rfl⟩ := Token.parameter.inj (Option.some.inj (hi.symm.trans hj))
  obtain rfl : config.bareConstraint = b := Except.ok.inj hb
  refine ⟨rest, ?_⟩
  rw [hsource, hread, hbare, Nat.zero_add]
  rfl

/-- **Every group of a bare placeholder's name holds a segment** -/
theorem isSegment_of_bare (hbare : config.bareConstraint = Config.standard.bareConstraint) (hplain : ¬mark <:+: template)
    (hp : compile config template = .ok p) {i : ℕ} {n : Text} (hi : (placeholders p.tokens)[i]? = some (.parameter n none))
    (howns : p.OwnsName i) {k : ℕ} (hk : p.program.names.lookup (groupName i) = some k) {e : Expr}
    (he : (k, e) ∈ p.program.root.groups) : e.IsSegment := by
  have hnaming := @segment_of_naming config template p hbare hplain hp i n hi howns
  obtain ⟨tokens, source, program, -, -, hprogram, rfl⟩ := compile_eq_ok_iff.1 hp
  obtain ⟨m, hrun, hfinish⟩ := parse_eq_ok_iff.1 hprogram
  obtain ⟨-, -, rfl, -⟩ := finish_eq_ok_iff.1 hfinish
  refine Machine.isSegment_of_run (· = groupName i) hrun ?_ (fun x hx => hnaming hx) rfl hk he
  rintro _ rfl
  exact ⟨isGroupName_groupName i, groupName_counts⟩

/-- **A bare placeholder never crosses a slash**, whatever source surrounds it. The parameters of a match stand under some of the
names, in their order; that of a bare placeholder is a part of the path, not empty and without slashes, as long as no other group
is given the name of its group. -/
theorem parameters?_bare (hbare : config.bareConstraint = Config.standard.bareConstraint)
    (hplain : ¬"_perch_p".toList <:+: template) (hp : compile config template = .ok p) {path : Text}
    {params : List (Text × Text)} (hparams : p.parameters? path = .ok (some params)) :
    (params.map Prod.fst).Sublist p.names ∧ ∀ i n v, p.names[i]? = some n → .parameter n none ∈ p.tokens → p.OwnsName i →
      (n, v) ∈ params → v ≠ [] ∧ v <:+: path ∧ '/' ∉ v := by
  unfold parameters? at hparams
  split at hparams
  · cases hparams
  · rename_i captures hmatch
    obtain ⟨_, hcollect, hsome⟩ := map_eq_ok_iff.1 hparams
    obtain rfl := Option.some.inj hsome
    refine ⟨sublist_of_collect hcollect, fun i n v hi hbareToken howns hmem => ?_⟩
    obtain ⟨i', k, hi', hk, hv⟩ := mem_collect hcollect hmem
    obtain ⟨j, hj⟩ := List.mem_iff_getElem?.1 (List.mem_filter.2 ⟨hbareToken, rfl⟩ : _ ∈ placeholders p.tokens)
    -- the names of placeholders differ, so the group looked up is that of the bare one
    have hdistinct := nodup_names_of_compile hp
    have hnames := names_of_compile hp
    have hlt : i < (Template.names p.tokens).length := hnames ▸ (List.getElem?_eq_some_iff.1 hi).1
    rw [hnames] at hi hi'
    obtain rfl : i = i' := (List.getElem?_inj hlt hdistinct).1 (hi.trans hi'.symm)
    obtain rfl : i = j := (List.getElem?_inj hlt hdistinct).1 (hi.trans (getElem?_names hj).symm)
    rw [Nat.zero_add] at hk
    exact Program.captured_segment hmatch (fun body => isSegment_of_bare hbare hplain hp hj howns hk) hv

/-- a bare placeholder that is repeated, and one that a look ahead keeps from the path, under the verbose flag -/
theorem parameters?_bare_repeated :
    let template := "(?x)/(?: \x7bdir\x7d / )* (?: (?!v\\d) \x7bfile\x7d | v \x7bid: :digit:+\x7d )".toList
    let path := "/a/b/v7".toList
    ∃ p params, compile .standard template = .ok p ∧ p.parameters? path = .ok (some params) ∧
      params = [("dir".toList, "b".toList), ("id".toList, "7".toList)] ∧ (params.map Prod.fst).Sublist p.names ∧
      ∀ (i : ℕ) n v, p.names[i]? = some n → .parameter n none ∈ p.tokens → (n, v) ∈ params → v ≠ [] ∧ v <:+: path ∧ '/' ∉ v := by
  intro template path
  have hanswer : answer .standard template path =
      .ok (some [("dir".toList, "b".toList), ("id".toList, "7".toList)]) := by
    rw [answer_eq_find?]
    decide +kernel
  have howns : (compile .standard template).toOption.all (fun p => ∀ i < p.names.length, p.OwnsName i) = true := by
    decide +kernel
  cases hp : compile .standard template with
  | error e =>
    rw [answer, hp] at hanswer
    cases hanswer
  | ok p =>
    rw [answer, hp] at hanswer
    rw [hp] at howns
    have howns : ∀ i < p.names.length, p.OwnsName i := of_decide_eq_true howns
    obtain ⟨hsublist, hbare⟩ := parameters?_bare rfl (by decide +kernel) hp hanswer
    refine ⟨p, _, rfl, hanswer, rfl, hsublist, fun i n v hi htoken hmem => ?_⟩
    exact hbare i n v hi htoken (howns i (List.getElem?_eq_some_iff.1 hi).1) hmem

/-- where a bare placeholder's parameter holds a slash: under the verbose flag the name of its group is given to another one,
spelled with a blank in it -/
theorem bare_takes_slash :
    let template := "(?x)\x7bx\x7d(?P<_per ch_p0>.*)".toList
    ¬"_perch_p".toList <:+: template ∧ ∃ p, compile .standard template = .ok p ∧ .parameter "x".toList none ∈ p.tokens ∧
      p.parameters? "a/b".toList = .ok (some [("x".toList, "/b".toList)]) := by
  intro template
  have hanswer : answer .standard template "a/b".toList = .ok (some [("x".toList, "/b".toList)]) := by
    rw [answer_eq_find?]
    decide +kernel
  have htokens : (compile .standard template).toOption.all (fun p => .parameter "x".toList none ∈ p.tokens) = true := by
    decide +kernel
  refine ⟨by decide +kernel, ?_⟩
  cases hp : compile .standard template with
  | error e =>
    rw [answer, hp] at hanswer
    cases hanswer
  | ok p =>
    rw [answer, hp] at hanswer
    rw [hp] at htokens
    exact ⟨p, rfl, of_decide_eq_true htokens, hanswer⟩

end UriRouting.Pattern
