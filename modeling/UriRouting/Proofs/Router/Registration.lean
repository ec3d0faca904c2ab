/-
Registering is all or nothing, and tells the first offence. `Refused` says why a route is refused on its own account, in
the order in which it is looked at; `NameTaken` says that its name is that of a registered route, or of an earlier one of
the batch. A route that is refused anywhere in the batch counts before any name that is taken.

Results:
- `register_error_iff`: the failure of a batch, told exactly.
- `registers_atomically`: with that failure nothing is changed and nothing logged; else all of the batch is put behind
  the registered routes and logged, in order.
-/
import UriRouting.Proofs.Router.Survivors

namespace UriRouting.Router

open Results

/-- why a route is refused on its own account: its template, then its method, then what the template holds -/
inductive Refused (config : Config) (route : Route) : Error → Prop
  | template (h : route.template = none ∨ route.template = some []) : Refused config route .emptyPattern
  | method {template : Text} (htemplate : route.template = some template) (hne : template ≠ [])
    (h : ∀ m, route.method = some m → m ∉ Method.known) : Refused config route (.invalidMethod route.method)
  | pattern {template m : Text} {e : Error} (htemplate : route.template = some template) (hne : template ≠ [])
    (hmethod : route.method = some m) (hm : m ∈ Method.known) (h : Pattern.compile config template = .error e) :
    Refused config route e

/-- the name of the route is the proper name of a registered route, or the name of an earlier one of its batch -/
def NameTaken (registered before : List Route) (route : Route) (name : Text) : Prop :=
  route.name = some name ∧
    ((name ≠ [] ∧ ∃ s ∈ registered, s.name = some name) ∨ ∃ s ∈ before, s.name = some name)

/-- the first route of the batch that offends, with its offence -/
inductive Offence (config : Config) (registered batch : List Route) : Error → Prop
  | refused (before : List Route) (route : Route) (after : List Route) (hbatch : batch = before ++ route :: after)
    (hbefore : ∀ s ∈ before, ∀ e, ¬Refused config s e) {e : Error} (h : Refused config route e) :
    Offence config registered batch e
  | nameTaken (before : List Route) (route : Route) (after : List Route) (hbatch : batch = before ++ route :: after)
    (hrefused : ∀ s ∈ batch, ∀ e, ¬Refused config s e)
    (hbefore : ∀ earlier s later name, before = earlier ++ s :: later → ¬NameTaken registered earlier s name)
    {name : Text} (h : NameTaken registered before route name) :
    Offence config registered batch (.duplicateName name)

theorem entryOf_error_iff {config : Config} {route : Route} {e : Error} :
    entryOf config route = .error e ↔ Refused config route e := by
  refine ⟨?_, ?_⟩
  · intro h
    unfold entryOf at h
    split at h
    · rename_i ht
      obtain rfl := Except.error.inj h
      exact .template (.inl ht)
    · rename_i ht
      obtain rfl := Except.error.inj h
      exact .template (.inr ht)
    · rename_i template hne htemplate
      split at h
      · rename_i hmethod
        obtain rfl := Except.error.inj h
        rw [← hmethod]
        exact .method htemplate hne fun m hm => by simp [hmethod] at hm
      · rename_i m hmethod
        split at h
        · rename_i hm
          exact .pattern htemplate hne hmethod hm (map_eq_error_iff.1 h)
        · rename_i hm
          obtain rfl := Except.error.inj h
          rw [← hmethod]
          apply Refused.method htemplate hne
          intro n hn
          obtain rfl := Option.some.inj (hmethod.symm.trans hn)
          exact hm
  · intro h
    cases h with
    | template ht =>
      rcases ht with ht | ht
      · simp only [entryOf, ht]
      · simp only [entryOf, ht]
    | @method template htemplate hne hm =>
      simp only [entryOf, htemplate]
      cases template with
      | nil => exact absurd rfl hne
      | cons c t =>
        cases hmethod : route.method with
        | none => rfl
        | some m => simp only [if_neg (hm m hmethod)]
    | @pattern template m e htemplate hne hmethod hm hc =>
      cases template with
      | nil => exact absurd rfl hne
      | cons c t =>
        simp only [entryOf, htemplate, hmethod, if_pos hm, hc]
        rfl

theorem exists_entryOf_iff {config : Config} {route : Route} :
    (∃ e, entryOf config route = .ok e) ↔ ∀ e, ¬Refused config route e := by
  simp only [← entryOf_error_iff]
  cases entryOf config route <;> simp

/-! ## Batches of routes -/

theorem taken_iff {r : Router} (hr : Indexed r) {before : List Entry} {e : Entry} {name : Text} :
    Taken r.table.names before e name ↔ NameTaken r.routes (before.map Entry.route) e.route name := by
  have hnames : name ∈ r.table.names ↔ name ≠ [] ∧ ∃ s ∈ r.routes, s.name = some name := by
    rw [hr.built, mem_names_build, Router.routes]
    simp
  rw [Taken, NameTaken, hnames]
  simp

/-- the clash of a compiled batch, told of its routes -/
theorem clash?_iff_nameTaken {r : Router} (hr : Indexed r) {entries : List Entry} {name : Text} :
    clash? r.table.names entries = some name ↔ ∃ before route after,
      entries.map Entry.route = before ++ route :: after ∧
      (∀ earlier s later name, before = earlier ++ s :: later → ¬NameTaken r.routes earlier s name) ∧
      NameTaken r.routes before route name := by
  have hnone : ∀ before : List Entry, clash? r.table.names before = none ↔
      ∀ earlier s later name, before.map Entry.route = earlier ++ s :: later → ¬NameTaken r.routes earlier s name := by
    intro before
    rw [clash?_eq_none_iff]
    refine ⟨?_, ?_⟩
    · intro h earlier s later name hsplit
      obtain ⟨earlier, tail, rfl, rfl, htail⟩ := List.map_eq_append_iff.1 hsplit
      obtain ⟨f, later, rfl, rfl, rfl⟩ := List.map_eq_cons_iff.1 htail
      exact fun hn => h earlier f later name rfl ((taken_iff hr).2 hn)
    · rintro h earlier f later name rfl ht
      exact h _ f.route (later.map Entry.route) name (by simp) ((taken_iff hr).1 ht)
  rw [clash?_eq_some_iff]
  refine ⟨?_, ?_⟩
  · intro hclash
    obtain ⟨before, e, after, rfl, hbefore, htaken⟩ := hclash
    exact ⟨_, e.route, after.map Entry.route, by simp, (hnone before).1 hbefore, (taken_iff hr).1 htaken⟩
  · intro hclash
    obtain ⟨before, route, after, hsplit, hbefore, htaken⟩ := hclash
    obtain ⟨before, tail, rfl, rfl, htail⟩ := List.map_eq_append_iff.1 hsplit
    obtain ⟨e, after, rfl, rfl, rfl⟩ := List.map_eq_cons_iff.1 htail
    exact ⟨before, e, after, rfl, (hnone before).2 hbefore, (taken_iff hr).2 htaken⟩

/-- **The failure of a batch is the first offence in it** -/
theorem register_error_iff {r : Router} (hr : Indexed r) {batch : List Route} {e : Error} :
    r.register batch = .error e ↔ Offence r.config r.routes batch e := by
  have hrefused : (∃ entries, batch.mapM (entryOf r.config) = .ok entries) ↔ ∀ s ∈ batch, ∀ e, ¬Refused r.config s e := by
    rw [exists_mapM_iff]
    exact forall₂_congr fun s _ => exists_entryOf_iff
  cases hbatch : batch.mapM (entryOf r.config) with
  | error f =>
    have hanswer : r.register batch = .error f := by
      rw [register, hbatch]
    rw [hanswer, Except.error.injEq]
    refine ⟨?_, ?_⟩
    · rintro rfl
      obtain ⟨before, route, after, hsplit, hbefore, hroute⟩ := mapM_error_iff.1 hbatch
      exact .refused before route after hsplit (fun s hs => exists_entryOf_iff.1 (hbefore s hs))
        (entryOf_error_iff.1 hroute)
    · intro h
      rcases h with ⟨before, route, after, hsplit, hbefore, hroute⟩ | ⟨_, _, _, _, hnone, -, -⟩
      · have hfirst := mapM_error_iff.2 ⟨before, route, after, hsplit, fun s hs => exists_entryOf_iff.2 (hbefore s hs),
          entryOf_error_iff.2 hroute⟩
        exact Except.error.inj (hbatch.symm.trans hfirst)
      · obtain ⟨entries, hentries⟩ := hrefused.2 hnone
        simp [hbatch] at hentries
  | ok entries =>
    have hnone := hrefused.1 ⟨entries, hbatch⟩
    have hroutes := map_route_of_mapM hbatch
    have hanswer : r.register batch = .error e ↔
        ∃ name, clash? r.table.names entries = some name ∧ .duplicateName name = e := by
      simp only [register, hbatch]
      cases clash? r.table.names entries <;> simp
    rw [hanswer]
    refine ⟨?_, ?_⟩
    · intro h
      obtain ⟨name, hclash, rfl⟩ := h
      obtain ⟨before, route, after, hsplit, hbefore, htaken⟩ := (clash?_iff_nameTaken hr).1 hclash
      rw [hroutes] at hsplit
      exact .nameTaken before route after hsplit hnone hbefore htaken
    · intro h
      rcases h with ⟨before, route, after, hsplit, -, hroute⟩ | @⟨before, route, after, hsplit, -, hbefore, name, htaken⟩
      · have hmem : route ∈ batch := by simp [hsplit]
        exact absurd hroute (hnone route hmem e)
      · exact ⟨name, (clash?_iff_nameTaken hr).2 ⟨before, route, after, hroutes.trans hsplit, hbefore, htaken⟩, rfl⟩

/-- registering the batch answers, changes and logs all of it or nothing -/
structure RegistersAtomically (r : Router) (batch : List Route) (step : Step (List Route)) : Prop where
  fails_iff : ∀ e, step.answer = .error e ↔ Offence r.config r.routes batch e
  failed : ∀ e, step.answer = .error e → step.router = r ∧ step.events = []
  succeeded : ∀ answer, step.answer = .ok answer → answer = batch ∧ Reflects step.router (r.routes ++ batch) ∧
    step.router.config = r.config ∧ step.events = batch.map .added

theorem addAll_atomic {r : Router} (hr : Indexed r) (batch : List Route) :
    RegistersAtomically r batch (r.addAll batch) := by
  rcases addAll_cases r batch with ⟨s, hs, h⟩ | ⟨f, hf, h⟩
  · rw [h]
    have hnone : ∀ e, ¬Offence r.config r.routes batch e := by
      intro e he
      rw [← register_error_iff hr, hs] at he
      simp at he
    refine ⟨?_, ?_, ?_⟩
    · intro e
      refine ⟨?_, ?_⟩
      · intro he
        cases he
      · intro he
        exact absurd he (hnone e)
    · intro e he
      cases he
    · intro answer hanswer
      obtain rfl := Except.ok.inj hanswer
      refine ⟨rfl, ?_, ?_, rfl⟩
      · rw [← routes_register hs]
        exact (indexed_register hr hs).reflects
      · obtain ⟨entries, -, -, rfl⟩ := register_ok hs
        rfl
  · rw [h]
    refine ⟨?_, ?_, ?_⟩
    · intro e
      rw [← register_error_iff hr, hf, Except.error.injEq, Except.error.injEq]
    · intro e _
      exact ⟨rfl, rfl⟩
    · intro answer hanswer
      cases hanswer

/-- **Registration is atomic, and its failure exact**, for a group of any shape and for a single route -/
theorem registers_atomically {r : Router} (hr : Reachable r) :
    (∀ group, RegistersAtomically r group.allRoutes (r.addGroup group)) ∧
      ∀ route, RegistersAtomically r [route] (r.add route) :=
  ⟨fun group => addAll_atomic hr.indexed group.allRoutes, fun route => addAll_atomic hr.indexed [route]⟩

/-- a nested group whose second route bears the name of the registered one -/
theorem registers_atomically_nested :
    let r := run (.empty .standard) [.add ⟨0, some Method.get, some ['/'], .function [], some ['n']⟩]
    let group := Group.mk [] [⟨1, some Method.post, some "/a".toList, .function [], none⟩]
      [.mk "/b".toList [⟨2, some Method.all, some "/b/\x7bx\x7d".toList, .function [], some ['n']⟩] []]
    Reachable r ∧ RegistersAtomically r group.allRoutes (r.addGroup group) :=
  ⟨⟨.standard, _, rfl⟩, (registers_atomically ⟨.standard, _, rfl⟩).1 _⟩

end UriRouting.Router
