/-
What registering can fail with. Where every route has a template and a known method, a batch is refused for a name that is taken
or for a template that does not compile. The error of a template says which template it is, with two exceptions: flags in an
expression that exclude each other, and digits in it that write no number, are told as they are. That is so for templates of
which the reader takes up all notation (`Pattern.IsUnread`).

- `register_fails`: the errors of compiling and of registering, each with its reason.
- `foreign_errors_escape`: templates whose errors are not told as theirs.
-/
import UriRouting.Proofs.Pattern.Refused
import UriRouting.Proofs.Router.Registration

namespace UriRouting.Router

open Pattern Regex

/-- the route has a template that is not empty, and a method that is known -/
def IsComplete (route : Route) : Prop :=
  ∃ template m, route.template = some template ∧ template ≠ [] ∧ route.method = some m ∧ m ∈ Method.known

theorem exists_compile_of_refused {config : Config} {route : Route} (hroute : IsComplete route) {e : Error}
    (h : Refused config route e) : ∃ template, route.template = some template ∧ compile config template = .error e := by
  obtain ⟨template, m, htemplate, hne, hmethod, hm⟩ := hroute
  cases h with
  | template h =>
    rcases h with h | h
    · rw [htemplate] at h
      cases h
    · exact absurd (Option.some.inj (htemplate.symm.trans h)) hne
  | method _ _ hunknown => exact absurd hm (hunknown m hmethod)
  | pattern htemplate' _ _ _ h => exact ⟨_, htemplate', h⟩

/-- **A batch of complete routes** is refused for a name that is taken, or for one of its templates -/
theorem offence_cases {config : Config} {registered batch : List Route} (hbatch : ∀ route ∈ batch, IsComplete route)
    {e : Error} (h : Offence config registered batch e) : (∃ name, e = .duplicateName name) ∨
      ∃ route ∈ batch, ∃ template, route.template = some template ∧ compile config template = .error e := by
  cases h with
  | refused before route after hsplit _ hroute =>
    have hmem : route ∈ batch := by simp [hsplit]
    exact .inr ⟨route, hmem, exists_compile_of_refused (hbatch route hmem) hroute⟩
  | nameTaken => exact .inl ⟨_, rfl⟩

/-- the error is told as one of the template, and its message begins with it -/
def TellsTemplate (t : Text) (e : Error) : Prop :=
  ∃ f, e = .compilation t f ∧ "Cannot compile uri pattern ".toList ++ t.quoted <+: e.message

theorem tellsTemplate_compilation (t : Text) (f : Template.Fault) : TellsTemplate t (.compilation t f) := by
  refine ⟨f, rfl, ?_⟩
  rw [message_compilation]
  exact List.prefix_append _ _

/-- a template that a batch is told to be refused for is one that does not compile -/
theorem compile_of_register {r : Router} (hr : Indexed r) {batch : List Route} {t : Text} {f : Template.Fault}
    (h : r.register batch = .error (.compilation t f)) : compile r.config t = .error (.compilation t f) := by
  cases (register_error_iff hr).1 h with
  | refused _ _ _ _ _ hroute =>
    cases hroute with
    | pattern _ _ _ _ hfails =>
      rcases compile_error_cases hfails with hrefuses | ⟨-, he⟩
      · cases hrefuses <;> exact hfails
      · obtain ⟨rfl, -⟩ := Error.compilation.inj he
        exact hfails

theorem refuses_cases {config : Config} {t : Text} {e : Error} (h : Refuses config t e) :
    TellsTemplate t e ∨ (e = .incompatibleFlags ∧ ExcludesFlags config t) ∨
      ∃ digits, e = .unreadableNumber digits ∧ MisnumbersIn config t digits := by
  cases h with
  | template => exact .inl (tellsTemplate_compilation t _)
  | placeholder => exact .inl (tellsTemplate_compilation t _)
  | expression => exact .inl (tellsTemplate_compilation t _)
  | flags h => exact .inr (.inl ⟨rfl, h⟩)
  | number h => exact .inr (.inr ⟨_, rfl, h⟩)

/-- **What registering fails with.** Whatever is refused in a template, the error tells the template, except for two faults of
its expression: flags that exclude each other, which are those in front of it where it closes only parentheses of its own, and
digits that write no number. Complete routes are refused for nothing but a name that is taken and the errors of their
templates. -/
theorem register_fails {r : Router} (hr : Reachable r) :
    (∀ config t, ¬IsUnread config t → ∀ e, compile config t = .error e ↔ Refuses config t e) ∧
    (∀ config t e, Refuses config t e → TellsTemplate t e ∨ (e = .incompatibleFlags ∧ ExcludesFlags config t) ∨
      ∃ digits, e = .unreadableNumber digits ∧ MisnumbersIn config t digits) ∧
    (∀ config t source, Expresses config t source → parse source ≠ .error .unbalancedParenthesis →
      (ExcludesFlags config t ↔ (leadingFlags source).areCompatible = false ∧
        ∃ n, Machine.start.run source = .ok n ∧ n.frames = [] ∧ ¬EndsInComment source)) ∧
    (∀ group : Group, (∀ route ∈ group.allRoutes, IsComplete route) → ∀ e, (r.addGroup group).answer = .error e →
      (∃ name, e = .duplicateName name) ∨
        ∃ route ∈ group.allRoutes, ∃ t, route.template = some t ∧ compile r.config t = .error e) ∧
    ∀ route : Route, IsComplete route → ∀ e, (r.add route).answer = .error e →
      (∃ name, e = .duplicateName name) ∨ ∃ t, route.template = some t ∧ compile r.config t = .error e := by
  refine ⟨?_, ?_, ?_, ?_, ?_⟩
  · intro config t hread e
    exact compile_error_iff hread
  · intro config t e h
    exact refuses_cases h
  · intro config t source hsource hcloses
    exact excludesFlags_iff hsource hcloses
  · intro group hgroup e h
    exact offence_cases hgroup (((addAll_atomic hr.indexed group.allRoutes).fails_iff e).1 h)
  · intro route hroute e h
    have hbatch : ∀ s ∈ [route], IsComplete s := by simpa using hroute
    rcases offence_cases hbatch (((addAll_atomic hr.indexed [route]).fails_iff e).1 h) with hname | ⟨s, hs, hfails⟩
    · exact .inl hname
    · exact .inr (List.mem_singleton.1 hs ▸ hfails)

/-- a nested group whose last template turns on flags that exclude each other -/
theorem register_fails_nested :
    let t := "(?au)/\x7bx\x7d".toList
    let r := run (.empty .standard) [.add ⟨0, some Method.get, some ['/'], .function [], some ['n']⟩]
    let group := Group.mk [] [⟨1, some Method.post, some "/a".toList, .function [], none⟩]
      [.mk [] [⟨2, some Method.all, some t, .function [], some ['n']⟩] []]
    Reachable r ∧ ¬IsUnread .standard t ∧ Refuses .standard t .incompatibleFlags ∧
      (leadingFlags t).areCompatible = false ∧ (r.addGroup group).answer = .error .incompatibleFlags ∧
      ∃ route ∈ group.allRoutes, ∃ s, route.template = some s ∧ compile r.config s = .error .incompatibleFlags := by
  intro t r group
  have hr : Reachable r := ⟨.standard, _, rfl⟩
  have hconfig : r.config = .standard := config_run _ _
  obtain ⟨hcompiles, hcauses, hflags, hgroups, -⟩ := register_fails hr
  have hcomplete : ∀ route ∈ group.allRoutes, IsComplete route := by
    intro route hroute
    rcases List.mem_pair.1 hroute with rfl | rfl
    · exact ⟨_, _, rfl, by decide, rfl, by decide⟩
    · exact ⟨_, _, rfl, by decide, rfl, by decide⟩
  have hsource : Expresses .standard t "(?au)/(?P<_perch_p0>[^/]+)".toList :=
    ⟨[.literal "(?au)/".toList, .parameter ['x'] none], by decide +kernel, by decide +kernel⟩
  have hparse : parse (wrap true "(?au)/(?P<_perch_p0>[^/]+)".toList) = .error .incompatibleFlags := by decide +kernel
  have hread : ¬IsUnread .standard t := by
    rw [isUnread_iff hsource]
    rintro ⟨g, hg, hunread⟩
    obtain rfl := Except.error.inj (hparse.symm.trans hg)
    exact hunread
  have hfails : compile .standard t = .error .incompatibleFlags :=
    compile_of_refuses (.flags (excludesFlags_iff_parse.2 ⟨_, hsource, hparse⟩))
  have hrefuses : Refuses .standard t .incompatibleFlags := (hcompiles .standard t hread _).1 hfails
  have hexcludes : ExcludesFlags .standard t := by
    rcases hcauses .standard t _ hrefuses with ⟨f, hf, -⟩ | ⟨-, hexcludes⟩ | ⟨digits, hdigits, -⟩
    · cases hf
    · exact hexcludes
    · cases hdigits
  have hfirst : ∀ e, ¬Refused r.config ⟨1, some Method.post, some "/a".toList, .function [], none⟩ e := by
    rw [hconfig]
    exact exists_entryOf_iff.1 (Results.exists_of_isOk (by decide +kernel))
  have hlast : Refused r.config ⟨2, some Method.all, some t, .function [], some ['n']⟩ .incompatibleFlags := by
    rw [hconfig]
    exact .pattern rfl (by decide) rfl (by decide) hfails
  have hanswer : (r.addGroup group).answer = .error .incompatibleFlags :=
    ((addAll_atomic hr.indexed group.allRoutes).fails_iff _).2 (.refused [_] _ [] rfl (by simpa using hfirst) hlast)
  refine ⟨hr, hread, hrefuses, ((hflags .standard t _ hsource (by decide +kernel)).1 hexcludes).1, hanswer, ?_⟩
  rcases hgroups group hcomplete _ hanswer with ⟨name, hname⟩ | hrefused
  · cases hname
  · exact hrefused

/-- **Errors that escape**: those of two templates are not told as theirs, neither by compiling nor by registering -/
theorem foreign_errors_escape :
    let t := "(?au)/a".toList
    let s := "(?P=²)".toList
    let route : Route := ⟨0, some Method.get, some t, .function [], none⟩
    compile .standard t = .error .incompatibleFlags ∧ compile .standard s = .error (.unreadableNumber ['²']) ∧
      IsComplete route ∧ ((Router.empty .standard).add route).answer = .error .incompatibleFlags ∧
      ¬TellsTemplate t .incompatibleFlags ∧ ¬TellsTemplate s (.unreadableNumber ['²']) := by
  intro t s route
  have ht : compile .standard t = .error .incompatibleFlags := by decide +kernel
  have hr : Reachable (.empty .standard) := ⟨.standard, [], rfl⟩
  have hanswer : ((Router.empty .standard).add route).answer = .error .incompatibleFlags :=
    ((addAll_atomic hr.indexed [route]).fails_iff _).2
      (.refused [] route [] rfl (by simp) (.pattern rfl (by decide) rfl (by decide) ht))
  refine ⟨ht, by decide +kernel, ⟨_, _, rfl, by decide, rfl, by decide⟩, hanswer, ?_, ?_⟩
  · rintro ⟨f, h, -⟩
    cases h
  · rintro ⟨f, h, -⟩
    cases h

end UriRouting.Router
