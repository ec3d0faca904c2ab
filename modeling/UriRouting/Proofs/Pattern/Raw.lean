/-
Templates that are regular expressions. What a template or a constraint says as an expression of its own it says in a compiled
pattern as well, if it stands alone there (`StandsAlone`): it closes only parentheses that it opened, does not end in a comment,
and what it sets for all classes is set outside as well. The group that a constraint stands in is one more group, counted
before its own; so the constraint may refer to groups by name, but not by number (`RefersByName`).

Results:
- `parse_wrap_alone`: a source that stands alone is read in the group around a pattern as on its own.
- `parse_wrap_placeholder`: and so in the group of a placeholder, its own groups raised.
- `compile_keeps_meaning`: what a template without placeholders and a single placeholder accept and match.
- `placeholder_counts_as_group`: the constraint that refers to its first group by number.
-/
import UriRouting.Proofs.Regex.Raised
import UriRouting.Proofs.Pattern.Wrapping
import UriRouting.Proofs.Pattern.Failing
import UriRouting.Proofs.Template.Placeholder

namespace UriRouting.Pattern

open Regex Template Results

/-! ## Templates without placeholders -/

theorem exists_parameter {inner : Text} {token : Token} (h : parameter? inner = some token) :
    ∃ name constraint, token = .parameter name constraint := by
  simp only [parameter?] at h
  split at h
  · cases h
  · split at h
    · exact ⟨_, _, (Option.some.inj h).symm⟩
    · exact ⟨_, _, (Option.some.inj h).symm⟩

/-- tokens without names write the text that they were read from -/
theorem print_of_gather {pending : Text} {position : ℕ} {segments : List Segment} {tokens : List Token}
    (h : gather pending position segments = .ok tokens) (hnames : Template.names tokens = []) :
    Template.print tokens = pending ++ segments.flatMap Segment.text := by
  fun_induction gather pending position segments generalizing tokens with
  | case1 pending position =>
    obtain rfl := Except.ok.inj h
    unfold flush
    split
    · rename_i hempty
      rw [List.isEmpty_iff.1 hempty]
      rfl
    · simp [Template.print, Token.print]
  | case2 => cases h
  | case3 pending position inner rest next hquantifier =>
    rename_i ih
    rw [ih h hnames, List.flatMap_cons, List.append_assoc]
  | case4 => cases h
  | case5 pending position inner rest next hquantifier token htoken =>
    obtain ⟨more, -, rfl⟩ := map_eq_ok_iff.1 h
    obtain ⟨name, constraint, rfl⟩ := exists_parameter htoken
    rw [Outline.names_flush] at hnames
    cases hnames
  | case6 pending position segment rest hbraces hunclosed ih =>
    rw [ih h hnames, List.flatMap_cons, List.append_assoc]

theorem print_of_tokenize {template : Text} {tokens : List Token} (h : tokenize template = .ok tokens)
    (hnames : Template.names tokens = []) : Template.print tokens = template := by
  rw [print_of_gather h hnames, segments_text, List.nil_append]

theorem assemble_of_names {config : Config} {seen : List Text} {tokens : List Token} (h : Template.names tokens = []) :
    assemble config seen tokens = .ok (Template.print tokens) := by
  induction tokens with
  | nil => rfl
  | cons token tokens ih =>
    cases token with
    | literal t =>
      rw [assemble, ih h]
      rfl
    | parameter name constraint => cases h

/-! ## Sources that stand alone -/

/-- the source means the same in a group as on its own, behind flags that are as given -/
structure StandsAlone (flags : Flags) (t : Text) : Prop where
  /-- it closes no parenthesis that it did not open -/
  closesOwn : parse t ≠ .error .unbalancedParenthesis
  /-- it does not end in a comment -/
  noComment : ¬EndsInComment t
  /-- at its end, what chooses the classes is as it is behind the flags -/
  sameClasses : ∀ n, Machine.start.run t = .ok n →
    n.flags.asciiOnly = flags.asciiOnly ∧ n.flags.areCompatible = flags.areCompatible

/-- a source stands alone where a parenthesis behind it is one too many and the flags at its end are as given -/
theorem StandsAlone.of_run {flags : Flags} {t : Text} (hparse : parse t ≠ .error .unbalancedParenthesis)
    (hbehind : (Machine.start.run (t ++ [')'])).toOption.isNone)
    (hflags : (Machine.start.run t).toOption.map (·.flags) = some flags) : StandsAlone flags t := by
  refine ⟨hparse, ?_, fun n hn => ?_⟩
  · rintro ⟨n, -, hn⟩
    rw [hn] at hbehind
    cases hbehind
  · rw [hn] at hflags
    obtain rfl : n.flags = flags := Option.some.inj hflags
    exact ⟨rfl, rfl⟩

/-- a machine at the end, in a group, finishes as it does on its own -/
theorem finish_grouped {n : Machine} {flags : Flags} (hframes : n.frames = [])
    (hclasses : n.flags.asciiOnly = flags.asciiOnly ∧ n.flags.areCompatible = flags.areCompatible) :
    (grouped flags n).finish = n.finish := by
  have hempty : (grouped flags n).frames = [] := rfl
  have hclose : (grouped flags n).sequence.close = n.sequence.close := rfl
  have hcompatible : (grouped flags n).flags.areCompatible = n.flags.areCompatible := hclasses.2.symm
  have hascii : (grouped flags n).flags.asciiOnly = n.flags.asciiOnly := hclasses.1.symm
  rw [Machine.finish, Machine.finish, hempty, hframes, hcompatible, hascii, hclose]
  rfl

/-- **A source that stands alone is read in the group around it as on its own** -/
theorem parse_wrap_alone {t : Text} (ht : StandsAlone (leadingFlags t) t) {r : Program} :
    parse (wrap false t) = .ok r ↔ parse t = .ok r := by
  have hgrouped : ∀ {n}, Machine.start.run t = .ok n → n.frames = [] →
      Machine.start.run (wrap false t) = .ok (grouped (leadingFlags t) n) := by
    intro n hn hframes
    rw [run_wrap_of_run hn hframes ht.noComment]
    exact Machine.run_nil _
  simp only [parse_eq_ok_iff]
  constructor
  · rintro ⟨m, hm, hr⟩
    obtain ⟨n, hn, hframes, -⟩ := run_of_run_wrap (run_ne_of_parse_ne ht.closesOwn) hm (finish_eq_ok_iff.1 hr).1
    obtain rfl := Except.ok.inj (hm.symm.trans (hgrouped hn hframes))
    exact ⟨n, hn, (finish_grouped hframes (ht.sameClasses n hn)).symm.trans hr⟩
  · rintro ⟨n, hn, hr⟩
    have hframes := (finish_eq_ok_iff.1 hr).1
    exact ⟨_, hgrouped hn hframes, (finish_grouped hframes (ht.sameClasses n hn)).trans hr⟩

/-! ## In the group of a placeholder -/

/-- what is open around the constraint of the first placeholder: its own group, and the one around the pattern -/
def placeholder : Enclosure where
  groups := 1
  names := [(groupName 0, 1)]
  frames := [⟨.capture 1, [], .start⟩, ⟨.plain, [], .start⟩]
  bounded f hf n h := by
    simp only [List.mem_cons, List.not_mem_nil, or_false] at hf
    rcases hf with rfl | rfl
    · obtain rfl := Opening.capture.inj h
      exact ⟨le_rfl, le_rfl⟩
    · cases h

/-- the source speaks of groups by their names, and not by the one of the first placeholder -/
def RefersByName (t : Text) : Prop := ∀ r ∈ Machine.start.speaksOf t, ∃ name, r = .name name ∧ name ≠ groupName 0

theorem keeps_of_refersByName {t : Text} (ht : RefersByName t) : ∀ r ∈ Machine.start.speaksOf t, placeholder.Keeps r := by
  intro r hr
  obtain ⟨name, rfl, hne⟩ := ht r hr
  have hlookup : (name == groupName 0) = false := by simpa using hne
  simp only [Enclosure.Keeps, placeholder, List.lookup_cons, hlookup, List.lookup_nil]

def inPlaceholder (r : Program) : Program :=
  ⟨.group 1 (r.root.raise 1), r.groups + 1, (groupName 0, 1) :: Machine.raiseNames 1 r.names, r.asciiOnly⟩

theorem run_wrap_placeholder (t : Text) :
    Machine.start.run (wrap false (group 0 t)) = (Machine.start.enclosed placeholder).run (t ++ ')' :: [')']) := by
  have hsource : wrap false (group 0 t) =
      "(?:".toList ++ ("(?P<".toList ++ groupName 0 ++ '>' :: (t ++ ')' :: [')'])) := by
    have hflags : splitFlags (group 0 t) = ([], group 0 t) := rfl
    rw [wrap, hflags]
    simp [group]
  rw [hsource, Machine.run_open, Machine.run_namedGroup rfl (isGroupName_groupName 0) groupName_closes]
  rfl

/-- the machine behind both groups, in which another one has read the constraint -/
def placed (n : Machine) : Machine :=
  ⟨.push .start (.group 1 (n.sequence.close.raise 1)), [], [], n.groups + 1, (groupName 0, 1) :: Machine.raiseNames 1 n.names⟩

theorem run_placeholder_closed {n : Machine} (hframes : n.frames = []) :
    (n.enclosed placeholder).run (')' :: [')']) = .ok (placed n) := by
  have houter : (n.enclosed placeholder).frames = placeholder.frames := by rw [Machine.enclosed, hframes]; rfl
  have hleave : (n.enclosed placeholder).leave = .ok { placed n with frames := [⟨.plain, [], .start⟩] } := by
    rw [Machine.leave, houter, placed, Sequence.raise_close]
    rfl
  rw [Machine.run_close, hleave]
  simp only
  rw [Machine.run_close]
  exact Machine.run_nil (placed n)

theorem knows_inPlaceholder {r : Program} (hnumbered : ∀ x ∈ r.names, 1 ≤ x.2) {ref : Reference} (href : placeholder.Keeps ref) :
    (inPlaceholder r).knows ref = r.knows ref := by
  have hresolve : ref.resolve (inPlaceholder r).names = (ref.resolve r.names).map (· + 1) :=
    Machine.resolve_enclosed placeholder href r.names
  rw [Program.knows, Program.knows, hresolve]
  cases ref with
  | number n => exact absurd href Nat.one_ne_zero
  | name t =>
    cases hlookup : Reference.resolve r.names (.name t) with
    | none => rfl
    | some n =>
      have hone : 1 ≤ n := Machine.one_le_of_lookup hnumbered hlookup
      simp only [Option.map_some, inPlaceholder, Nat.le_add_left, Nat.add_le_add_iff_right, hone]

variable {t : Text}

/-- what the program refers to the source spoke of -/
theorem keeps_of_mem_references (hname : RefersByName t) {n : Machine} (hn : Machine.start.run t = .ok n) {r : Reference}
    (hr : r ∈ (programOf n).root.references) : placeholder.Keeps r := by
  have hrefers : n.Refers r := .inl (Sequence.mem_references_close.1 hr)
  rcases Machine.refers_of_run hn hrefers with (⟨e, he, -⟩ | ⟨f, hf, -⟩) | hspoken
  · exact absurd he List.not_mem_nil
  · exact absurd hf List.not_mem_nil
  · exact keeps_of_refersByName hname r hspoken

/-- a machine at the end of a constraint finishes in the group of the placeholder when it does on its own -/
theorem finish_placed (ht : StandsAlone [] t) (hname : RefersByName t) {n : Machine} (hn : Machine.start.run t = .ok n)
    (hframes : n.frames = []) {p : Program} : (placed n).finish = .ok p ↔ ∃ r, n.finish = .ok r ∧ p = inPlaceholder r := by
  obtain ⟨hascii, hcompatible⟩ := ht.sameClasses n hn
  have hprogram : programOf (placed n) = inPlaceholder (programOf n) := by
    simp only [programOf, placed, inPlaceholder, hascii]
    rfl
  have hnumbered : n.IsNumbered := Machine.isNumbered_of_run hn fun _ hx => absurd hx List.not_mem_nil
  have hknows : (inPlaceholder (programOf n)).root.references.all (inPlaceholder (programOf n)).knows =
      (programOf n).root.references.all (programOf n).knows := by
    have hroot : (inPlaceholder (programOf n)).root.references = (programOf n).root.references := Expr.references_raise _
    rw [hroot, Bool.eq_iff_iff, List.all_eq_true, List.all_eq_true]
    refine forall_congr' fun r => forall_congr' fun hr => ?_
    rw [knows_inPlaceholder (r := programOf n) hnumbered (keeps_of_mem_references hname hn hr)]
  simp only [finish_eq_ok_iff, hprogram]
  constructor
  · rintro ⟨-, hflags, rfl, hknown⟩
    exact ⟨programOf n, ⟨hframes, hcompatible, rfl, hknows.symm.trans hknown⟩, rfl⟩
  · rintro ⟨r, ⟨-, hflags, rfl, hknown⟩, rfl⟩
    exact ⟨rfl, rfl, rfl, hknows.trans hknown⟩

/-- **A constraint that stands alone is read in the group of a placeholder as on its own**, its groups raised -/
theorem parse_wrap_placeholder (ht : StandsAlone [] t) (hname : RefersByName t) {p : Program} :
    parse (wrap false (group 0 t)) = .ok p ↔ ∃ r, parse t = .ok r ∧ p = inPlaceholder r := by
  have htail : IsTail [')'] := fun c hc => .inl (List.mem_singleton.1 hc)
  have hstart : Machine.start.IsNumbered := fun _ hx => absurd hx List.not_mem_nil
  have hkeep := keeps_of_refersByName hname
  have hplaced : ∀ {n}, Machine.start.run t = .ok n → n.frames = [] →
      Machine.start.run (wrap false (group 0 t)) = .ok (placed n) := by
    intro n hn hframes
    rcases Machine.run_close_cases hn hstart with ⟨hends, -⟩ | ⟨-, hrun⟩
    · exact absurd hends ht.noComment
    · rw [run_wrap_placeholder, hrun htail hkeep, run_placeholder_closed hframes]
  simp only [parse_eq_ok_iff]
  constructor
  · rintro ⟨m, hm, hp⟩
    have hm' := hm
    rw [run_wrap_placeholder] at hm'
    obtain ⟨n, hn, hframes, -⟩ := Machine.run_of_enclosed htail (run_ne_of_parse_ne ht.closesOwn) hstart hkeep
      (by decide) hm' (finish_eq_ok_iff.1 hp).1
    obtain rfl := Except.ok.inj (hm.symm.trans (hplaced hn hframes))
    obtain ⟨r, hr, rfl⟩ := (finish_placed ht hname hn hframes).1 hp
    exact ⟨r, ⟨n, hn, hr⟩, rfl⟩
  · rintro ⟨r, ⟨n, hn, hr⟩, rfl⟩
    have hframes := (finish_eq_ok_iff.1 hr).1
    exact ⟨_, hplaced hn hframes, (finish_placed ht hname hn hframes).2 ⟨r, hr, rfl⟩⟩

/-! ## Matching -/

/-- **In the group of a placeholder the program matches what it matches on its own**, and the group has captured it all -/
theorem fullMatch_inPlaceholder {r : Program} (hkeep : ∀ ref ∈ r.root.references, placeholder.Keeps ref) (path : Text) :
    Option.Rel (fun _ captures => captures.text? 1 = some path) (r.fullMatch path) ((inPlaceholder r).fullMatch path) := by
  have hraised : RaisedIn 1 r (inPlaceholder r) r.root :=
    ⟨fun ref href => Machine.resolve_enclosed placeholder (hkeep ref href) r.names, rfl⟩
  have hstart : Raised 1 (.start path) (.start path) := ⟨rfl, rfl, fun _ => rfl⟩
  -- the state behind the group, and what the group has captured there
  have hgroup : List.Forall₂ (fun s t => t.after = s.after ∧ t.captures.text? 1 = some (Capture.text ⟨path, t.after⟩))
      (r.outcomes r.root .forward (.start path))
      (((inPlaceholder r).outcomes (r.root.raise 1) .forward (.start path)).map fun t => t.capture 1 .forward (.start path)) := by
    rw [List.forall₂_map_right_iff]
    refine (Program.raised_outcomes hraised .forward hstart).imp fun s t hst => ⟨hst.after, ?_⟩
    rw [State.capture, Captures.text?_set, if_pos rfl]
    rfl
  have hrel := rel_find? (f := fun s => s.after.isEmpty) (g := fun s => s.after.isEmpty) hgroup fun s t hst => by rw [hst.1]
  have hroot : (inPlaceholder r).outcomes (inPlaceholder r).root .forward (.start path) =
      ((inPlaceholder r).outcomes (r.root.raise 1) .forward (.start path)).map fun t => t.capture 1 .forward (.start path) := rfl
  rw [Program.fullMatch_eq_find?, Program.fullMatch_eq_find?, hroot]
  generalize hfound : List.find? _ (List.map _ _) = found at hrel ⊢
  generalize List.find? _ _ = own at hrel ⊢
  cases hrel with
  | none => exact .none
  | @some s t hst =>
    have hend : t.after.isEmpty = true := List.find?_some (p := fun s : State => s.after.isEmpty) hfound
    refine .some ?_
    rw [hst.2, List.isEmpty_iff.1 hend]
    simp [Capture.text]

theorem parameters?_inPlaceholder {r : Program} (hkeep : ∀ ref ∈ r.root.references, placeholder.Keeps ref) {p : Pattern}
    {name : Text} (hprogram : p.program = inPlaceholder r) (hnames : p.names = [name]) (path : Text) :
    p.parameters? path = .ok ((r.fullMatch path).map fun _ => [(name, path)]) := by
  have hmatch := fullMatch_inPlaceholder hkeep path
  rw [parameters?, hprogram, hnames]
  generalize (inPlaceholder r).fullMatch path = found at hmatch ⊢
  generalize r.fullMatch path = own at hmatch ⊢
  cases hmatch with
  | none => rfl
  | @some _ captures htext =>
    have hgroup : (inPlaceholder r).names.lookup (groupName 0) = some 1 := by simp [inPlaceholder]
    simp only [collect, hgroup, Except.map, htext, Option.map_some]

/-! ## Compiled templates -/

/-- **A template without placeholders that stands alone is the expression that it is**: it compiles when that is accepted, and
matches what that matches -/
theorem compile_raw {config : Config} (hslash : config.trailingSlash = false) {template : Text} {tokens : List Token}
    (htokens : tokenize template = .ok tokens) (hnames : Template.names tokens = [])
    (halone : StandsAlone (leadingFlags template) template) {p : Pattern} : compile config template = .ok p ↔
      ∃ r, parse template = .ok r ∧ p = ⟨template, wrap false template, r, [], tokens⟩ := by
  rw [compile_eq_ok_iff]
  have hassemble : assemble config [] tokens = .ok template :=
    (assemble_of_names hnames).trans (congrArg Except.ok (print_of_tokenize htokens hnames))
  simp only [htokens, hslash, Except.ok.injEq]
  constructor
  · rintro ⟨_, source, r, rfl, hsource, hr, rfl⟩
    obtain rfl := Except.ok.inj (hassemble.symm.trans hsource)
    exact ⟨r, (parse_wrap_alone halone).1 hr, by rw [hnames]⟩
  · rintro ⟨r, hr, rfl⟩
    exact ⟨tokens, template, r, rfl, hassemble, (parse_wrap_alone halone).2 hr, by rw [hnames]⟩

theorem assemble_placeholder {config : Config} {name constraint source : Text} :
    assemble config [] [.parameter name (some constraint)] = .ok source ↔
      ∃ x, expand constraint = .ok x ∧ source = group 0 x := by
  simp only [assemble, List.not_mem_nil, if_false, body]
  cases expand constraint with
  | error f => simp [Except.mapError]
  | ok x => simp [Except.mapError, Except.map, eq_comm]

/-- **A single placeholder is the expression of its constraint**, where that stands alone and refers to groups by name: it
compiles when that is accepted, and matches what that matches, whole -/
theorem compile_placeholder {config : Config} (hslash : config.trailingSlash = false) {name constraint : Text} (hn : IsName name)
    (hk : IsConstraint constraint) (halone : ∀ source, expand constraint = .ok source → StandsAlone [] source ∧ RefersByName source)
    {p : Pattern} : compile config (Token.parameter name (some constraint)).print = .ok p ↔
      ∃ source r, expand constraint = .ok source ∧ parse source = .ok r ∧
        p = ⟨(Token.parameter name (some constraint)).print, wrap false (group 0 source), inPlaceholder r, [name],
          [.parameter name (some constraint)]⟩ := by
  have htokens : tokenize (Token.parameter name (some constraint)).print = .ok [.parameter name (some constraint)] :=
    tokenize_constrained hn hk (l := []) (by simp [IsLiteral])
  rw [compile_eq_ok_iff]
  simp only [htokens, hslash, Except.ok.injEq]
  constructor
  · rintro ⟨_, _, _, rfl, hassemble, hp, rfl⟩
    obtain ⟨source, hsource, rfl⟩ := assemble_placeholder.1 hassemble
    obtain ⟨hstands, hrefers⟩ := halone source hsource
    obtain ⟨r, hr, rfl⟩ := (parse_wrap_placeholder hstands hrefers).1 hp
    exact ⟨source, r, hsource, hr, rfl⟩
  · rintro ⟨source, r, hsource, hr, rfl⟩
    obtain ⟨hstands, hrefers⟩ := halone source hsource
    have hp := (parse_wrap_placeholder hstands hrefers).2 ⟨r, hr, rfl⟩
    exact ⟨_, _, _, rfl, assemble_placeholder.2 ⟨source, hsource, rfl⟩, hp, rfl⟩

/-- **Templates that are regular expressions keep their meaning.** Without placeholders and without a tolerated slash, a template
that stands alone compiles when it is an expression, and then matches what that matches. A single placeholder compiles when its
constraint is one, and then matches what that matches, with the whole path as its parameter -/
theorem compile_keeps_meaning {config : Config} (hslash : config.trailingSlash = false) :
    (∀ template tokens, tokenize template = .ok tokens → Template.names tokens = [] →
      StandsAlone (leadingFlags template) template →
      ((∃ p, compile config template = .ok p) ↔ ∃ r, parse template = .ok r) ∧
      ∀ p r, compile config template = .ok p → parse template = .ok r →
        ∀ path, p.parameters? path = .ok ((r.fullMatch path).map fun _ => [])) ∧
    ∀ name constraint, IsName name → IsConstraint constraint →
      (∀ source, expand constraint = .ok source → StandsAlone [] source ∧ RefersByName source) →
      ((∃ p, compile config (Token.parameter name (some constraint)).print = .ok p) ↔
        ∃ source r, expand constraint = .ok source ∧ parse source = .ok r) ∧
      ∀ p source r, compile config (Token.parameter name (some constraint)).print = .ok p →
        expand constraint = .ok source → parse source = .ok r →
        ∀ path, p.parameters? path = .ok ((r.fullMatch path).map fun _ => [(name, path)]) := by
  constructor
  · intro template tokens htokens hnames halone
    have hcompile := fun p => compile_raw (p := p) hslash htokens hnames halone
    refine ⟨⟨?_, ?_⟩, ?_⟩
    · rintro ⟨p, hp⟩
      obtain ⟨r, hr, -⟩ := (hcompile p).1 hp
      exact ⟨r, hr⟩
    · rintro ⟨r, hr⟩
      exact ⟨_, (hcompile _).2 ⟨r, hr, rfl⟩⟩
    · intro p r hp hr path
      obtain ⟨r', hr', rfl⟩ := (hcompile p).1 hp
      obtain rfl := Except.ok.inj (hr.symm.trans hr')
      rw [parameters?]
      cases r.fullMatch path <;> rfl
  · intro name constraint hn hk halone
    have hcompile := fun p => compile_placeholder (p := p) hslash hn hk halone
    refine ⟨⟨?_, ?_⟩, ?_⟩
    · rintro ⟨p, hp⟩
      obtain ⟨source, r, hsource, hr, -⟩ := (hcompile p).1 hp
      exact ⟨source, r, hsource, hr⟩
    · rintro ⟨source, r, hsource, hr⟩
      exact ⟨_, (hcompile _).2 ⟨source, r, hsource, hr, rfl⟩⟩
    · intro p source r hp hsource hr path
      obtain ⟨source', r', hsource', hr', rfl⟩ := (hcompile p).1 hp
      obtain rfl := Except.ok.inj (hsource.symm.trans hsource')
      obtain rfl := Except.ok.inj (hr.symm.trans hr')
      obtain ⟨n, hn, hfinish⟩ := parse_eq_ok_iff.1 hr
      obtain rfl := (finish_eq_ok_iff.1 hfinish).2.2.1
      exact parameters?_inPlaceholder (fun ref => keeps_of_mem_references (halone source hsource).2 hn) rfl rfl path

/-- two templates that repeat what a group has captured: a raw one by the group's number, a placeholder by its name -/
theorem compile_keeps_meaning_doubled :
    let strict := { Config.standard with trailingSlash := false }
    let raw := "(?i)/([a-z])\\1".toList
    let doubled := "(?P<c>[a-z])(?P=c)".toList
    (∃ p r, compile strict raw = .ok p ∧ parse raw = .ok r ∧
      ∀ path, p.parameters? path = .ok ((r.fullMatch path).map fun _ => [])) ∧
    ∃ p r, compile strict (Token.parameter "x".toList (some doubled)).print = .ok p ∧ parse doubled = .ok r ∧
      ∀ path, p.parameters? path = .ok ((r.fullMatch path).map fun _ => [("x".toList, path)]) := by
  intro strict raw doubled
  obtain ⟨hraw, hplaceholder⟩ := @compile_keeps_meaning strict rfl
  constructor
  · have halone : StandsAlone (leadingFlags raw) raw := .of_run (by decide +kernel) (by decide +kernel) (by decide +kernel)
    have htokens : tokenize raw = .ok [.literal raw] := by decide +kernel
    obtain ⟨haccepted, hmatches⟩ := hraw raw _ htokens rfl halone
    have hparse : (parse raw).toOption.isSome := by decide +kernel
    cases hr : parse raw with
    | error f => rw [hr] at hparse; cases hparse
    | ok r =>
      obtain ⟨p, hp⟩ := haccepted.2 ⟨r, hr⟩
      exact ⟨p, r, hp, rfl, hmatches p r hp hr⟩
  · have hexpand : expand doubled = .ok doubled := by decide +kernel
    have halone : StandsAlone [] doubled ∧ RefersByName doubled := by
      constructor
      · exact .of_run (by decide +kernel) (by decide +kernel) (by decide +kernel)
      · have hspoken : Machine.start.speaksOf doubled = [.name "c".toList, .name "c".toList] := by decide +kernel
        intro r hr
        rw [hspoken] at hr
        simp only [List.mem_cons, List.not_mem_nil, or_false, or_self] at hr
        exact ⟨_, hr, by decide +kernel⟩
    obtain ⟨haccepted, hmatches⟩ := hplaceholder "x".toList doubled (by decide +kernel) ⟨by decide, by decide, by decide⟩
      fun source hsource => Except.ok.inj (hexpand.symm.trans hsource) ▸ halone
    have hparse : (parse doubled).toOption.isSome := by decide +kernel
    cases hr : parse doubled with
    | error f => rw [hr] at hparse; cases hparse
    | ok r =>
      obtain ⟨p, hp⟩ := haccepted.2 ⟨doubled, r, hexpand, hr⟩
      exact ⟨p, r, hp, rfl, hmatches p doubled r hp hexpand hr⟩

/-- a constraint that refers to its first group by number: on its own it is an expression, but in the group of the placeholder
that number is the placeholder's, which is still open there -/
theorem placeholder_counts_as_group :
    let strict := { Config.standard with trailingSlash := false }
    let doubled := "([a-z])\\1".toList
    let template := (Token.parameter "x".toList (some doubled)).print
    IsConstraint doubled ∧ expand doubled = .ok doubled ∧ (parse doubled).toOption.isSome = true ∧
      compile strict template = .error (.compilation template .rejected) := by
  intro strict doubled template
  exact ⟨⟨by decide, by decide, by decide⟩, by decide +kernel, by decide +kernel, by decide +kernel⟩

end UriRouting.Pattern
