/-
Names. In every router that a history leads to, a proper name belongs to one entry and looks up the route of just this
one; the entry's pattern is its template compiled. So a URI asked for by a name is that of the route's own tokens, and the
only thing that can be wrong is a placeholder without a value. What happens to routes of other names does not show.

A route is known by its serial number, so "routes of other names" means something only where a number stands for one route
(`OnePerSerial`).

- `uriFor_of_entry`: the URI for a name, read off the entry that bears it.
- `route?_step`, `uriFor_run`: other names do not touch a name, step by step and over a history.
- `names_reachable`: all of it, for every reachable router.
-/
import UriRouting.Proofs.Pattern.Compiled
import UriRouting.Proofs.Router.Survivors
import UriRouting.Proofs.Uri.Rendering

namespace UriRouting.Router

open Results

/-! ## The URI for a name -/

/-- the URI for a name of the entry: refused for the first placeholder without a value, and for nothing else; else the
route's tokens with their values, behind the context path -/
structure Serves (r : Router) (e : Entry) (name : Text) (parameters : Uri.Parameters) : Prop where
  refused : ∀ err, r.uriFor name parameters = .error err ↔ ∃ before x after, e.pattern.names = before ++ x :: after ∧
    (∀ y ∈ before, ¬Uri.Lacks parameters y) ∧ Uri.Lacks parameters x ∧
    err = .unresolvedParameter x (e.route.template.getD [])
  rendered : (∀ x ∈ e.pattern.names, ¬Uri.Lacks parameters x) → ∃ uri,
    Uri.render e.pattern.tokens parameters = .ok uri ∧ r.uriFor name parameters = .ok (Uri.join r.mount uri)

/-- **The URI for a name** is what the tokens of its entry come to, behind the context path -/
theorem Indexed.uriFor_of_entry {r : Router} (hr : Indexed r) {e : Entry} (he : e ∈ r.table.entries) {name : Text}
    (hname : e.route.name = some name) (hne : name ≠ []) (parameters : Uri.Parameters) : r.uriFor name parameters =
      match Uri.render e.pattern.tokens parameters with
      | .error x => .error (.unresolvedParameter x (e.route.template.getD []))
      | .ok uri => .ok (Uri.join r.mount uri) := by
  obtain ⟨-, template, method, htemplate, -, -, -, hp⟩ := entryOf_ok (hr.compiled e he)
  have hroute : r.table.route? name = some e.route := hr.route?_eq_some.2 ⟨List.mem_map_of_mem he, hname, hne⟩
  have htarget : r.templateOf name = template := by
    rw [templateOf, hroute, Option.bind_some, htemplate, Option.getD_some]
  have hempty : name.isEmpty = false := by simpa using hne
  simp only [uriFor, hempty, htarget, hp, htemplate, Option.getD_some, Bool.false_eq_true, if_false]
  cases Uri.render e.pattern.tokens parameters <;> rfl

theorem Indexed.serves {r : Router} (hr : Indexed r) {e : Entry} (he : e ∈ r.table.entries) {name : Text}
    (hname : e.route.name = some name) (hne : name ≠ []) (parameters : Uri.Parameters) : Serves r e name parameters := by
  obtain ⟨-, template, method, -, -, -, -, hp⟩ := entryOf_ok (hr.compiled e he)
  have hfails : ∀ x, Uri.render e.pattern.tokens parameters = .error x ↔ ∃ before after,
      e.pattern.names = before ++ x :: after ∧ (∀ y ∈ before, ¬Uri.Lacks parameters y) ∧ Uri.Lacks parameters x := by
    intro x
    rw [Pattern.names_of_compile hp, Uri.render_error_iff,
      Uri.firstUnresolved_iff_of_nodup (Pattern.nodup_names_of_compile hp)]
  have huri := hr.uriFor_of_entry he hname hne parameters
  refine ⟨?_, ?_⟩
  · intro err
    rw [huri]
    cases hrender : Uri.render e.pattern.tokens parameters with
    | error x =>
      refine ⟨?_, ?_⟩
      · intro h
        obtain rfl := Except.error.inj h
        obtain ⟨before, after, hsplit, hbefore, hlacks⟩ := (hfails x).1 hrender
        exact ⟨before, x, after, hsplit, hbefore, hlacks, rfl⟩
      · intro h
        obtain ⟨before, y, after, hsplit, hbefore, hlacks, rfl⟩ := h
        have hy := (hfails y).2 ⟨before, after, hsplit, hbefore, hlacks⟩
        rw [Except.error.inj (hrender.symm.trans hy)]
    | ok uri =>
      refine ⟨?_, ?_⟩
      · intro h
        cases h
      · intro h
        obtain ⟨before, y, after, hsplit, hbefore, hlacks, -⟩ := h
        cases hrender.symm.trans ((hfails y).2 ⟨before, after, hsplit, hbefore, hlacks⟩)
  · intro hpresent
    cases hrender : Uri.render e.pattern.tokens parameters with
    | error x =>
      obtain ⟨before, after, hsplit, -, hlacks⟩ := (hfails x).1 hrender
      exact absurd hlacks (hpresent x (by simp [hsplit]))
    | ok uri => exact ⟨uri, rfl, by rw [huri, hrender]⟩

/-! ## Other names -/

def Change.routes : Change → List Route
  | .add route => [route]
  | .addGroup group => group.allRoutes
  | .remove route => [route]

/-- a serial number stands for one route -/
def OnePerSerial (routes : List Route) : Prop := ∀ s ∈ routes, ∀ t ∈ routes, s.isSame t = true → s = t

theorem OnePerSerial.subset {routes more : List Route} (h : OnePerSerial more) (hsub : routes ⊆ more) :
    OnePerSerial routes := fun s hs t ht => h s (hsub hs) t (hsub ht)

theorem gains_subset (r : Router) (c : Change) : gains r c ⊆ c.routes := by
  cases c with
  | add route =>
    simp only [gains, Change.routes]
    split
    · exact List.Subset.refl _
    · exact List.nil_subset _
  | addGroup group =>
    simp only [gains, Change.routes]
    split
    · exact List.Subset.refl _
    · exact List.nil_subset _
  | remove route => exact List.nil_subset _

/-- what a change takes out is the route it is about -/
theorem exists_of_takenOut {c : Change} {route : Route} (h : takenOut [c] route = true) :
    ∃ s ∈ c.routes, route.isSame s = true := by
  cases c with
  | remove s => exact ⟨s, List.mem_singleton_self s, by simpa [takenOut] using h⟩
  | _ => simp [takenOut] at h

/-- a change leaves no routes but those before it and those it is about -/
theorem routes_step_subset (r : Router) (c : Change) : (r.step c).routes ⊆ r.routes ++ c.routes := by
  intro route hroute
  rw [routes_step] at hroute
  rcases List.mem_append.1 hroute with h | h
  · exact List.mem_append_left _ (List.mem_of_mem_filter h)
  · exact List.mem_append_right _ (gains_subset r c h)

theorem routes_run_subset (r : Router) (cs : List Change) : (r.run cs).routes ⊆ r.routes ++ cs.flatMap Change.routes := by
  induction cs generalizing r with
  | nil => exact List.subset_append_left _ _
  | cons c cs ih =>
    rw [List.flatMap_cons, ← List.append_assoc]
    refine List.Subset.trans (ih (r.step c)) (List.append_subset.2 ⟨?_, List.subset_append_right _ _⟩)
    exact List.subset_append_of_subset_left _ (routes_step_subset r c)

/-- **A change to routes of other names does not change what a name stands for** -/
theorem route?_step {r : Router} (hr : Indexed r) {c : Change} (hone : OnePerSerial (r.routes ++ c.routes)) {name : Text}
    (hother : ∀ s ∈ c.routes, s.name ≠ some name) : (r.step c).table.route? name = r.table.route? name := by
  have hsame : ∀ route, route.name = some name → (route ∈ (r.step c).routes ↔ route ∈ r.routes) := by
    intro route hname
    rw [routes_step, List.mem_append, List.mem_filter]
    refine ⟨?_, ?_⟩
    · intro h
      rcases h with ⟨h, -⟩ | h
      · exact h
      · exact absurd hname (hother route (gains_subset r c h))
    · intro h
      refine .inl ⟨h, ?_⟩
      rw [Bool.not_eq_true']
      apply Bool.eq_false_iff.2
      intro htaken
      obtain ⟨s, hs, hsame⟩ := exists_of_takenOut htaken
      obtain rfl := hone route (List.mem_append_left _ h) s (List.mem_append_right _ hs) hsame
      exact hother route hs hname
  apply Option.ext
  intro route
  rw [(indexed_step hr c).route?_eq_some, hr.route?_eq_some]
  refine ⟨?_, ?_⟩
  · intro h
    obtain ⟨hmem, hname, hne⟩ := h
    exact ⟨(hsame route hname).1 hmem, hname, hne⟩
  · intro h
    obtain ⟨hmem, hname, hne⟩ := h
    exact ⟨(hsame route hname).2 hmem, hname, hne⟩

/-- a URI depends on the settings and on what its target stands for -/
theorem uriFor_congr {r s : Router} (hconfig : r.config = s.config) {target : Text}
    (hroute : r.table.route? target = s.table.route? target) (parameters : Uri.Parameters) :
    r.uriFor target parameters = s.uriFor target parameters := by
  simp only [uriFor, templateOf, outer, mount, hconfig, hroute]

theorem uriFor_run {r : Router} (hr : Indexed r) {cs : List Change}
    (hone : OnePerSerial (r.routes ++ cs.flatMap Change.routes)) {target : Text}
    (hother : ∀ s ∈ cs.flatMap Change.routes, s.name ≠ some target) (parameters : Uri.Parameters) :
    (r.run cs).uriFor target parameters = r.uriFor target parameters := by
  induction cs generalizing r with
  | nil => rfl
  | cons c cs ih =>
    rw [List.flatMap_cons, List.forall_mem_append] at hother
    rw [List.flatMap_cons, ← List.append_assoc] at hone
    have hrest : (r.step c).routes ++ cs.flatMap Change.routes ⊆ r.routes ++ c.routes ++ cs.flatMap Change.routes :=
      List.append_subset.2 ⟨List.subset_append_of_subset_left _ (routes_step_subset r c), List.subset_append_right _ _⟩
    calc
      (r.run (c :: cs)).uriFor target parameters = (r.step c).uriFor target parameters :=
        ih (indexed_step hr c) (hone.subset hrest) hother.2
      _ = r.uriFor target parameters :=
        uriFor_congr (config_step r c) (route?_step hr (hone.subset (List.subset_append_left _ _)) hother.1) parameters

/-! ## Names in a reachable router -/

/-- what holds of the names in a router -/
structure KeepsNames (r : Router) : Prop where
  /-- no proper name is borne by two entries -/
  unique : r.table.entries.Pairwise fun e f => ∀ name, e.route.name = some name → name ≠ [] → f.route.name ≠ some name
  named : ∀ e ∈ r.table.entries, ∀ name, e.route.name = some name → name ≠ [] → r.table.route? name = some e.route
  /-- the name of no entry, and the empty one, stand for nothing -/
  unknown : ∀ name, (∀ e ∈ r.table.entries, e.route.name = some name → name = []) → r.table.route? name = none
  compiled : ∀ e ∈ r.table.entries, ∃ template method, e.route.template = some template ∧ template ≠ [] ∧
    e.route.method = some method ∧ method ∈ Method.known ∧ Pattern.compile r.config template = .ok e.pattern
  serves : ∀ e ∈ r.table.entries, ∀ name, e.route.name = some name → name ≠ [] → ∀ parameters,
    Serves r e name parameters
  /-- routes of other names come and go unseen -/
  kept : ∀ cs, OnePerSerial (r.routes ++ cs.flatMap Change.routes) → ∀ target,
    (∀ s ∈ cs.flatMap Change.routes, s.name ≠ some target) → ∀ parameters,
    (r.run cs).uriFor target parameters = r.uriFor target parameters

theorem Indexed.unique {r : Router} (hr : Indexed r) : r.table.entries.Pairwise fun e f =>
    ∀ name, e.route.name = some name → name ≠ [] → f.route.name ≠ some name := by
  have hnamed := List.pairwise_filterMap.1 hr.named
  refine hnamed.imp ?_
  intro e f hproper name he hne hf
  exact hproper name (properName?_eq_some.2 ⟨he, hne⟩) name (properName?_eq_some.2 ⟨hf, hne⟩) rfl

/-- **Names in every reachable router**: one entry for each, compiled from its own template, looked up and rendered by it,
and untouched by routes of other names -/
theorem names_reachable {r : Router} (hr : Reachable r) : KeepsNames r where
  unique := hr.indexed.unique
  named := by
    intro e he name hname hne
    exact hr.indexed.route?_eq_some.2 ⟨List.mem_map_of_mem he, hname, hne⟩
  unknown := by
    intro name hnone
    cases hroute : r.table.route? name with
    | none => rfl
    | some route =>
      obtain ⟨hmem, hname, hne⟩ := hr.indexed.route?_eq_some.1 hroute
      obtain ⟨e, he, rfl⟩ := List.mem_map.1 hmem
      exact absurd (hnone e he hname) hne
  compiled := fun e he => (entryOf_ok (hr.indexed.compiled e he)).2
  serves := fun e he name hname hne parameters => hr.indexed.serves he hname hne parameters
  kept := fun cs hone target hother parameters => uriFor_run hr.indexed hone hother parameters

/-- a router with a context path and two names, one of them free again, and a history of other names behind it -/
theorem names_reachable_mounted :
    let page : Route := ⟨0, some Method.get, some "/page/\x7bx\x7d".toList, .function [], some ['p']⟩
    let home : Route := ⟨1, some Method.all, some "/".toList, .function [], some ['h']⟩
    let other : Route := ⟨2, some Method.get, some "/other".toList, .function [], some ['h']⟩
    let r := run (.empty { Config.standard with contextPath := "/app/".toList }) [.add home, .add page, .remove home]
    let cs : List Change := [.add other, .add home, .remove other]
    Reachable r ∧ KeepsNames r ∧ OnePerSerial (r.routes ++ cs.flatMap Change.routes) ∧
      (∀ s ∈ cs.flatMap Change.routes, s.name ≠ some ['p']) ∧
      (r.run cs).uriFor ['p'] [(['x'], .integer 5)] = .ok "/app/page/5".toList := by
  intro page home other r cs
  have hr : Reachable r := ⟨_, _, rfl⟩
  have hone : OnePerSerial (r.routes ++ cs.flatMap Change.routes) := by
    have hall : OnePerSerial [home, page, home, other, home, other] := by
      simp [OnePerSerial, Route.isSame, home, page, other]
    refine hall.subset (List.append_subset.2 ⟨?_, ?_⟩)
    · exact List.Subset.trans (routes_run_subset _ _) (List.subset_append_left [home, page, home] [other, home, other])
    · exact List.subset_append_right [home, page, home] [other, home, other]
  have hother : ∀ s ∈ cs.flatMap Change.routes, s.name ≠ some ['p'] := by
    simp [cs, Change.routes, other, home]
  refine ⟨hr, names_reachable hr, hone, hother, ?_⟩
  rw [(names_reachable hr).kept cs hone ['p'] hother]
  decide +kernel

end UriRouting.Router
