/-
Import strings that lead to no router. What keeps a router from being found is told to the user in one line, and the run ends
with status 1 and without output. Two failures are not caught and escape from the run: a module name that is empty, and a group
whose routes are refused with an error that is none of routing. Where a group is refused for notation of regular expressions
that the reader does not take up (`StopsUnread`), what its template does fail with, if it fails, is not known here.

- `failure_cases`: why there is no router.
- `isReported_iff`: a failure is told unless it is one of the two that escape.
- `router_or_complaint`: a command goes on with its router, complains, or lets the failure escape.
- `failures_escape`: runs from which a failure escapes.
-/
import UriRouting.Proofs.CommandLine.Pairs
import UriRouting.Proofs.Router.Refusing

namespace UriRouting.CommandLine

/-! ## Failures that escape -/

/-- the routes of the group are refused, with an error that is none of routing -/
def IsForeign (g : Group) : Prop :=
  ∃ e, (Router.empty .standard).register g.allRoutes = .error e ∧ e.isRouting = false

/-- the import string leads to the group, or to a factory of it -/
def LeadsTo (modules : List Module) (target : Text) (g : Group) : Prop :=
  ∃ a, Names modules target a ∧ a.content = .ok (.group g)

/-- the import string has no module name, or leads to a group that is refused so -/
inductive Escapes (modules : List Module) (target : Text) : Prop
  | emptyName (h : target = [] ∨ target.head? = some ':')
  | group {g : Group} (hg : LeadsTo modules target g) (h : IsForeign g)

/-- the import string leads to a group that is refused for a template with notation that the reader does not take up: nothing
is said of it -/
def StopsUnread (modules : List Module) (target : Text) : Prop :=
  ∃ g t fault, LeadsTo modules target g ∧ (Router.empty .standard).register g.allRoutes = .error (.compilation t fault) ∧
    Pattern.IsUnread .standard t

/-- the failure is neither an empty module name nor a group refused -/
def Failure.IsPlain : Failure → Prop
  | emptyModuleName | refused _ => False
  | _ => True

theorem Failure.isReported_of_isPlain {f : Failure} (h : f.IsPlain) : f.isReported = true := by
  cases f with
  | emptyModuleName => exact h.elim
  | refused => exact h.elim
  | _ => rfl

theorem isPlain_of_importTo {modules : List Module} {levels : Nat} {name : Text} {f : Failure}
    (h : importTo modules levels name = .error f) : f.IsPlain := by
  induction levels generalizing name with
  | zero =>
    obtain rfl := Except.error.inj h
    trivial
  | succ levels ih =>
    unfold importTo at h
    split at h
    · cases h
    · split at h
      · obtain rfl := Except.error.inj h
        trivial
      · obtain rfl := Except.error.inj h
        trivial
      · split at h
        · rename_i e he
          obtain rfl := Except.error.inj h
          exact ih he
        · obtain rfl := Except.error.inj h
          trivial

theorem importModule_error {modules : List Module} {name : Text} {f : Failure}
    (h : importModule modules name = .error f) : f.IsPlain ∨ f = .emptyModuleName ∧ name = [] := by
  unfold importModule at h
  split at h
  · exact .inr ⟨(Except.error.inj h).symm, rfl⟩
  · obtain rfl := Except.error.inj h
    exact .inl trivial
  · exact .inl (isPlain_of_importTo h)

theorem asRouter_error {origin : Text} {b : Attribute} {f : Failure} (h : (b.asRouter origin).answer = .error f) :
    f.IsPlain ∨ ∃ g e, b = .group g ∧ (Router.empty .standard).register g.allRoutes = .error e ∧ f = .refused e := by
  cases b with
  | group g =>
    rw [asRouter_group] at h
    cases he : (Router.empty .standard).register g.allRoutes with
    | ok r =>
      rw [he] at h
      cases h
    | error e =>
      rw [he] at h
      exact .inr ⟨g, e, rfl, he, (Except.error.inj h).symm⟩
  | router => cases h
  | _ =>
    obtain rfl := Except.error.inj h
    exact .inl trivial

theorem splitImport_eq_nil_iff {target : Text} : (splitImport target).1 = [] ↔ target = [] ∨ target.head? = some ':' := by
  have hhome : (splitImport target).1 = (target.cutAt ':').1 := by
    unfold splitImport
    split <;> simp [*]
  rw [hhome]
  cases target with
  | nil => simp [Text.cutAt]
  | cons c target =>
    rw [Text.cutAt]
    split <;> simp [*]

/-- **Why there is no router**: one of the plain failures, an empty module name, or the error that a group is refused with -/
theorem failure_cases {modules : List Module} {target : Text} {f : Failure}
    (h : (resolve modules target).answer = .error f) :
    f.IsPlain ∨ (f = .emptyModuleName ∧ (splitImport target).1 = []) ∨
      ∃ g e, LeadsTo modules target g ∧ (Router.empty .standard).register g.allRoutes = .error e ∧ f = .refused e := by
  have hresolved := resolution modules target
  generalize resolve modules target = found at h hresolved
  cases hresolved with
  | failed =>
    obtain rfl := Except.error.inj h
    exact .inl trivial
  | @given a _ _ ha hb =>
    refine (asRouter_error h).imp_right fun hgroup => .inr ?_
    obtain ⟨g, e, rfl, he, hf⟩ := hgroup
    exact ⟨g, e, ⟨a, ha, hb⟩, he, hf⟩
  | unimported _ he =>
    obtain rfl := Except.error.inj h
    exact (importModule_error he).imp_right .inl
  | missing =>
    obtain rfl := Except.error.inj h
    exact .inl trivial

theorem answer_of_leadsTo {modules : List Module} {target : Text} {g : Group} {e : Error} (h : LeadsTo modules target g)
    (he : (Router.empty .standard).register g.allRoutes = .error e) :
    (resolve modules target).answer = .error (.refused e) := by
  obtain ⟨a, ha, hg⟩ := h
  rcases resolve_of_names ha with ⟨_, _, _, hwords, -⟩ | ⟨b, origin, hb, hfound⟩
  · cases hwords.symm.trans hg
  · obtain rfl := Except.ok.inj (hb.symm.trans hg)
    rw [hfound, asRouter_group, he]

theorem exists_escaping {modules : List Module} {target : Text} (h : Escapes modules target) :
    ∃ f, (resolve modules target).answer = .error f ∧ f.isReported = false := by
  rcases h with hempty | ⟨hleads, e, he, hrouting⟩
  · have hmodule : importModule modules (splitImport target).1 = .error .emptyModuleName := by
      rw [splitImport_eq_nil_iff.2 hempty]
      rfl
    refine ⟨.emptyModuleName, ?_, rfl⟩
    simp only [resolve, hmodule]
  · exact ⟨.refused e, answer_of_leadsTo hleads he, hrouting⟩

/-- **A failure is told to the user unless it is one of the two that escape** -/
theorem isReported_iff {modules : List Module} {target : Text} {f : Failure}
    (h : (resolve modules target).answer = .error f) : f.isReported = false ↔ Escapes modules target := by
  refine ⟨?_, ?_⟩
  · intro hf
    rcases failure_cases h with hplain | ⟨-, hempty⟩ | ⟨g, e, hleads, he, rfl⟩
    · rw [Failure.isReported_of_isPlain hplain] at hf
      cases hf
    · exact .emptyName (splitImport_eq_nil_iff.1 hempty)
    · exact .group hleads ⟨e, he, hf⟩
  · intro hescapes
    obtain ⟨g, hg, hreported⟩ := exists_escaping hescapes
    obtain rfl := Except.error.inj (h.symm.trans hg)
    exact hreported

/-- a template that the failure tells of has the fault that is told of it -/
theorem refuses_of_told {modules : List Module} {target t : Text} {fault : Template.Fault}
    (h : (resolve modules target).answer = .error (.refused (.compilation t fault))) (hread : ¬StopsUnread modules target) :
    Pattern.Refuses .standard t (.compilation t fault) := by
  rcases failure_cases h with hplain | ⟨hempty, -⟩ | ⟨g, e, hleads, he, hrefused⟩
  · exact hplain.elim
  · cases hempty
  · obtain rfl := Failure.refused.inj hrefused
    have hfails : Pattern.compile .standard t = .error (.compilation t fault) :=
      Router.compile_of_register (Router.indexed_empty .standard) he
    exact (Pattern.compile_error_iff fun hunread => hread ⟨g, t, fault, hleads, he, hunread⟩).1 hfails

/-! ## Runs without a router -/

/-- **A router, a complaint, or an escape.** Behind a `--` every text is an import string. Where it leads to a router the
command goes on with it; where it escapes the run ends with its failure and writes nothing; and else the run ends with status 1,
no output, and the failure in one message. A template that this message tells of has the fault that it tells. -/
theorem router_or_complaint (modules : List Module) (c : Command) (target : Text) :
    (∀ rest values, Divides c (target :: rest) values → "--".toList ∉ rest →
      Asks c ("--".toList :: target :: rest) ⟨[], values, []⟩ ∧ (⟨[], values, []⟩ : Arguments).wordAt 0 = target) ∧
    ∀ words a, Asks c words a → a.wordAt 0 = target → (c = .renderUrl → ∀ w ∈ a.wordsAt 2, IsPair w) →
      let (shown, report) := run modules (c.name :: words)
      let found := resolve modules target
      shown = false ∧
      (∀ r, Obtains modules target r → ∃ next, c.next a = .ok next ∧ report = (next r).behind found.events) ∧
      ((∀ r, ¬Obtains modules target r) → ¬Escapes modules target → ¬StopsUnread modules target →
        ∃ f, found.answer = .error f ∧
        report.ending = .exit 1 ∧ report.output = [] ∧ report.errors shown = "Error: ".toList ++ f.message ++ ['\n'] ∧
        ∀ t fault, f = .refused (.compilation t fault) → Pattern.Refuses .standard t (.compilation t fault)) ∧
      (Escapes modules target → ∃ f, found.answer = .error f ∧
        report.ending = .noRouter f ∧ report.output = [] ∧ report.errors shown = []) := by
  refine ⟨?_, ?_⟩
  · intro rest values h hne
    refine ⟨asks_separator h hne, ?_⟩
    cases h <;> rfl
  · rintro words a hasks rfl hpairs
    obtain ⟨next, hnext⟩ := exists_next hpairs
    have hrun : run modules (c.name :: words) = (false, withRouter modules (a.wordAt 0) next) := by
      rw [(run_of_asks hasks modules).1, perform_ok hnext]
    rw [hrun]
    refine ⟨rfl, ?_, ?_, ?_⟩
    · intro r hr
      exact ⟨next, hnext, withRouter_of_obtains hr next⟩
    · intro hnone hescapes hread
      obtain ⟨f, hf⟩ := exists_failure hnone
      have hreported : f.isReported = true := by
        rw [← Bool.not_eq_false, isReported_iff hf]
        exact hescapes
      refine ⟨f, hf, ?_⟩
      rw [withRouter_of_failure hf, if_pos hreported]
      refine ⟨rfl, Report.output_behind _ _, (Report.errors_behind _ _).trans (Report.errors_complaint _ _ _), ?_⟩
      rintro t fault rfl
      exact refuses_of_told hf hread
    · intro hescapes
      obtain ⟨f, hf, hreported⟩ := exists_escaping hescapes
      refine ⟨f, hf, ?_⟩
      rw [withRouter_of_failure hf, hreported]
      exact ⟨rfl, Report.output_behind _ _, Report.errors_behind _ _⟩

/-- a factory that fails, for an import string that a dash starts and that has a colon in its attribute -/
theorem router_or_complaint_dashed :
    let modules : List Module := [⟨"-app".toList, [("a:b".toList, .factory (.error "no".toList) [])]⟩]
    let target := "-app:a:b".toList
    let words := ["--".toList, target, "/a".toList, "x=1".toList]
    let a : Arguments := ⟨[], [[target], ["/a".toList], ["x=1".toList]], []⟩
    Asks .renderUrl words a ∧ (∀ w ∈ a.wordsAt 2, IsPair w) ∧ (∀ r, ¬Obtains modules target r) ∧ ¬Escapes modules target ∧
      ¬StopsUnread modules target ∧ (run modules ("url".toList :: words)).2.ending = .exit 1 := by
  intro modules target words a
  obtain ⟨hread, hrun⟩ := router_or_complaint modules .renderUrl target
  have hasks : Asks .renderUrl words a := (hread _ _ (.renderUrl target "/a".toList ["x=1".toList]) (by decide)).1
  have hpairs : ∀ w ∈ a.wordsAt 2, IsPair w := by
    show ∀ w ∈ ["x=1".toList], IsPair w
    decide
  have hfailed : (resolve modules target).answer = .error (.factoryFailed "-app".toList "a:b".toList "no".toList) := by
    rfl
  have hnone : ∀ r, ¬Obtains modules target r := by
    intro r hr
    cases hfailed.symm.trans (answer_resolve_iff.2 hr)
  have hcaught : ¬Escapes modules target := by
    rw [← isReported_iff hfailed]
    decide
  have hread : ¬StopsUnread modules target := by
    rintro ⟨g, t, fault, hleads, he, -⟩
    cases hfailed.symm.trans (answer_of_leadsTo hleads he)
  refine ⟨hasks, hpairs, hnone, hcaught, hread, ?_⟩
  obtain ⟨_, _, hending, _⟩ := (hrun words a hasks rfl fun _ => hpairs).2.2.1 hnone hcaught hread
  exact hending

/-- a module without a name, and a group with a route that is refused for its flags: the run ends with neither router nor
message -/
theorem failures_escape :
    (run [] ["routes".toList, ":x".toList]).2.ending = .noRouter .emptyModuleName ∧
    (run [⟨"app".toList, [("g".toList,
        .group ⟨[], [⟨0, some "GET".toList, some "(?au)/a".toList, .function "h".toList, none⟩], []⟩)]⟩]
      ["routes".toList, "app:g".toList]).2.ending = .noRouter (.refused .incompatibleFlags) := by
  decide +kernel

end UriRouting.CommandLine
