/-
What import strings lead to. An import string names an attribute (`Names`); a factory is called once, and what it gives or what
the attribute is (`content`) has to be a router or a group that can be loaded into a fresh one (`Provides`). All that is logged
on the way comes from the factory, and behind it from the routes of the group if they are loaded.

- `resolution`: the ways in which looking for a router goes.
- `answer_resolve_iff`: a router is found just where the attribute that is named provides it.
- `fetching_events`: what is logged meanwhile.
- `withRouter_of_obtains`, `withRouter_of_failure`: how a run goes on with the router, or ends without one.
-/
import UriRouting.Proofs.Results
import UriRouting.CommandLine.Commands

namespace UriRouting.CommandLine

open Results

/-! ## Attributes -/

/-- the attribute that an import string names -/
def Names (modules : List Module) (target : Text) (a : Attribute) : Prop :=
  ∃ m, importModule modules (splitImport target).1 = .ok m ∧ m.attribute? (splitImport target).2 = some a

namespace Attribute

/-- the attribute itself, or what a call of it gives when it is a factory -/
def content : Attribute → Except Text Attribute
  | factory result _ => result
  | a => .ok a

/-- what a call of the attribute logs; nothing when there is nothing to call -/
def called : Attribute → List Router.Event
  | factory _ events => events
  | _ => []

/-- the routes of its group when all of them can be registered in a fresh router, else none -/
def loaded (a : Attribute) : List Route :=
  match a.content with
  | .ok (group g) =>
    match (Router.empty .standard).register g.allRoutes with
    | .ok _ => g.allRoutes
    | .error _ => []
  | _ => []

end Attribute

/-- the attribute stands for the router: its content is the router, or a group that a fresh router takes -/
inductive Provides (a : Attribute) : Router → Prop
  | router {r : Router} (h : a.content = .ok (.router r)) : Provides a r
  | group {g : Group} {r : Router} (h : a.content = .ok (.group g))
    (hr : (Router.empty .standard).register g.allRoutes = .ok r) : Provides a r

/-- the import string leads to the router -/
def Obtains (modules : List Module) (target : Text) (r : Router) : Prop := ∃ a, Names modules target a ∧ Provides a r

/-! ## Resolving -/

/-- a factory that fails is the failure; else its content is asked for a router, after what the call has logged -/
theorem resolve_of_names {modules : List Module} {target : Text} {a : Attribute} (h : Names modules target a) :
    (∃ home item words, a.content = .error words ∧
      resolve modules target = ⟨.error (.factoryFailed home item words), a.called⟩) ∨
    ∃ b origin, a.content = .ok b ∧
      resolve modules target = ⟨(b.asRouter origin).answer, a.called ++ (b.asRouter origin).events⟩ := by
  obtain ⟨m, hm, ha⟩ := h
  simp only [resolve, hm, ha]
  cases a with
  | factory result events =>
    cases result with
    | error words => exact .inl ⟨_, _, words, rfl, rfl⟩
    | ok b => exact .inr ⟨b, _, rfl, rfl⟩
  | _ => exact .inr ⟨_, (splitImport target).1 ++ ':' :: (splitImport target).2, rfl, rfl⟩

/-- without an attribute the failure is the import's, or that there is no attribute; nothing is logged -/
theorem resolve_of_not_names {modules : List Module} {target : Text} (h : ∀ a, ¬Names modules target a) :
    (∃ e, importModule modules (splitImport target).1 = .error e ∧ resolve modules target = ⟨.error e, []⟩) ∨
      ∃ home item, resolve modules target = ⟨.error (.missingAttribute home item), []⟩ := by
  cases hm : importModule modules (splitImport target).1 with
  | error e =>
    refine .inl ⟨e, rfl, ?_⟩
    simp only [resolve, hm]
  | ok m =>
    cases ha : m.attribute? (splitImport target).2 with
    | none =>
      refine .inr ⟨(splitImport target).1, (splitImport target).2, ?_⟩
      simp only [resolve, hm, ha]
    | some a => exact absurd ⟨m, hm, ha⟩ (h a)

/-- the ways in which looking for a router goes, each with what it gives and logs -/
inductive Resolution (modules : List Module) (target : Text) : Found → Prop
  | failed {a : Attribute} {home item words : Text} (ha : Names modules target a) (hwords : a.content = .error words) :
    Resolution modules target ⟨.error (.factoryFailed home item words), a.called⟩
  | given {a b : Attribute} {origin : Text} (ha : Names modules target a) (hb : a.content = .ok b) :
    Resolution modules target ⟨(b.asRouter origin).answer, a.called ++ (b.asRouter origin).events⟩
  | unimported {e : Failure} (hnone : ∀ a, ¬Names modules target a)
    (he : importModule modules (splitImport target).1 = .error e) : Resolution modules target ⟨.error e, []⟩
  | missing {home item : Text} (hnone : ∀ a, ¬Names modules target a) :
    Resolution modules target ⟨.error (.missingAttribute home item), []⟩

theorem resolution (modules : List Module) (target : Text) : Resolution modules target (resolve modules target) := by
  by_cases hnames : ∃ a, Names modules target a
  · obtain ⟨a, ha⟩ := hnames
    rcases resolve_of_names ha with ⟨_, _, _, hwords, hfound⟩ | ⟨_, _, hb, hfound⟩
    · rw [hfound]
      exact .failed ha hwords
    · rw [hfound]
      exact .given ha hb
  · rcases resolve_of_not_names (not_exists.1 hnames) with ⟨_, he, hfound⟩ | ⟨_, _, hfound⟩
    · rw [hfound]
      exact .unimported (not_exists.1 hnames) he
    · rw [hfound]
      exact .missing (not_exists.1 hnames)

theorem asRouter_group (origin : Text) (g : Group) : (Attribute.group g).asRouter origin =
    match (Router.empty .standard).register g.allRoutes with
    | .ok r => ⟨.ok r, g.allRoutes.map .added⟩
    | .error e => ⟨.error (.refused e), []⟩ := by
  simp only [Attribute.asRouter, Router.addGroup, Router.addAll]
  cases (Router.empty .standard).register g.allRoutes <;> rfl

theorem asRouter_ok_iff {origin : Text} {b : Attribute} {r : Router} : (b.asRouter origin).answer = .ok r ↔
    b = .router r ∨ ∃ g, b = .group g ∧ (Router.empty .standard).register g.allRoutes = .ok r := by
  cases b with
  | router s => simp [Attribute.asRouter]
  | group g =>
    rw [asRouter_group]
    cases hg : (Router.empty .standard).register g.allRoutes <;> simp [hg]
  | _ => simp [Attribute.asRouter]

theorem events_asRouter {origin : Text} {a b : Attribute} (h : a.content = .ok b) :
    (b.asRouter origin).events = a.loaded.map .added := by
  rw [Attribute.loaded, h]
  cases b with
  | group g =>
    rw [asRouter_group]
    cases hg : (Router.empty .standard).register g.allRoutes <;> simp only [hg, List.map_nil]
  | _ => rfl

/-- **A router is found just where the attribute that is named provides it** -/
theorem answer_resolve_iff {modules : List Module} {target : Text} {r : Router} :
    (resolve modules target).answer = .ok r ↔ Obtains modules target r := by
  refine ⟨?_, ?_⟩
  · intro h
    have hresolved := resolution modules target
    generalize resolve modules target = found at h hresolved
    cases hresolved with
    | @given a b origin ha hb =>
      refine ⟨a, ha, ?_⟩
      rcases asRouter_ok_iff.1 h with rfl | ⟨g, rfl, hr⟩
      · exact .router hb
      · exact .group hb hr
    | _ => cases h
  · rintro ⟨a, ha, hr⟩
    rcases resolve_of_names ha with ⟨_, _, _, hwords, -⟩ | ⟨b, origin, hb, hfound⟩
    · cases hr with
      | router h => cases hwords.symm.trans h
      | group h => cases hwords.symm.trans h
    · rw [hfound]
      apply asRouter_ok_iff.2
      cases hr with
      | router h => exact .inl (Except.ok.inj (hb.symm.trans h))
      | group h hr => exact .inr ⟨_, Except.ok.inj (hb.symm.trans h), hr⟩

/-- what is logged on the way to the router of an import string: nothing without an attribute; else what its factory logs, and
a record for each route of its group if that is loaded -/
inductive Fetching (modules : List Module) (target : Text) : List Router.Event → Prop
  | nothing (h : ∀ a, ¬Names modules target a) : Fetching modules target []
  | attribute {a : Attribute} (h : Names modules target a) : Fetching modules target (a.called ++ a.loaded.map .added)

theorem fetching_events (modules : List Module) (target : Text) : Fetching modules target (resolve modules target).events := by
  have hresolved := resolution modules target
  generalize resolve modules target = found at hresolved
  cases hresolved with
  | @failed a _ _ words ha hwords =>
    have hnone : a.loaded = [] := by
      rw [Attribute.loaded, hwords]
    have hfetching : Fetching modules target (a.called ++ a.loaded.map .added) := .attribute ha
    rwa [hnone, List.map_nil, List.append_nil] at hfetching
  | @given a b origin ha hb =>
    show Fetching modules target (a.called ++ (b.asRouter origin).events)
    rw [events_asRouter hb]
    exact .attribute ha
  | unimported hnone => exact .nothing hnone
  | missing hnone => exact .nothing hnone

/-! ## Runs that need a router -/

namespace Report

@[simp] theorem ending_behind (events : List Router.Event) (r : Report) : (r.behind events).ending = r.ending := rfl

@[simp] theorem output_behind (events : List Router.Event) (r : Report) : (r.behind events).output = r.output := by
  simp [output, behind, List.flatMap_map]

/-- records in front are not shown -/
@[simp] theorem errors_behind (events : List Router.Event) (r : Report) :
    (r.behind events).errors false = r.errors false := by
  simp [errors, behind, List.flatMap_map]

/-- records in front are shown first -/
@[simp] theorem errors_behind_verbose (events : List Router.Event) (r : Report) :
    (r.behind events).errors true = events.flatMap logLine ++ r.errors true := by
  simp [errors, behind, List.flatMap_map]

@[simp] theorem output_printing (t : Text) : (printing t).output = t := by
  simp [output, printing]

theorem errors_complaint (verbose : Bool) (t : Text) (code : Nat) :
    (complaint t code).errors verbose = "Error: ".toList ++ t ++ ['\n'] := by
  simp [errors, complaint, failing]

end Report

theorem withRouter_of_obtains {modules : List Module} {target : Text} {r : Router} (h : Obtains modules target r)
    (next : Router → Report) :
    withRouter modules target next = (next r).behind (resolve modules target).events := by
  simp only [withRouter, answer_resolve_iff.2 h]

/-- without a router the run ends with the failure, told to the user or not -/
theorem withRouter_of_failure {modules : List Module} {target : Text} {f : Failure}
    (h : (resolve modules target).answer = .error f) (next : Router → Report) :
    withRouter modules target next =
      (if f.isReported then Report.complaint f.message 1 else ⟨[], .noRouter f⟩).behind (resolve modules target).events := by
  simp only [withRouter, h]

theorem exists_failure {modules : List Module} {target : Text} (h : ∀ r, ¬Obtains modules target r) :
    ∃ f, (resolve modules target).answer = .error f := by
  cases hanswer : (resolve modules target).answer with
  | error f => exact ⟨f, rfl⟩
  | ok r => exact absurd (answer_resolve_iff.1 hanswer) (h r)

end UriRouting.CommandLine
