/-
A batch against its routes one by one. A batch compares its names with those in use and with one another, the empty name
like any other; a route on its own is only compared with what the index by name holds, and the index holds no empty name.
Both ways compile the same entries and, when they succeed, leave the same router behind and log the same records.

Results:
- `register_ok_iff`, `addEach_ok_iff`: what each of the two ways asks of the routes, in the same terms.
- `logsAdded_addAll`, `logsAdded_addEach`: each way logs the routes that it adds, and nothing else.
- `addGroup_iff_addEach`: the batch succeeds when the routes succeed one by one and at most one has the empty name.
-/
import UriRouting.Proofs.Router.Survivors

namespace UriRouting.Router

open Results

/-! ## Names of a batch -/

/-- the names of the entries in order, the empty name included -/
def givenNames (entries : List Entry) : List Text := entries.filterMap (·.route.name)

theorem properNames_eq_filter (entries : List Entry) : properNames entries = (givenNames entries).filter (!·.isEmpty) := by
  rw [properNames, givenNames, List.filter_filterMap]
  rfl

theorem mem_givenNames {entries : List Entry} {name : Text} :
    name ∈ givenNames entries ↔ ∃ e ∈ entries, e.route.name = some name := List.mem_filterMap

theorem clash?_eq_none_iff_nodup {inUse : List Text} {entries : List Entry} :
    clash? inUse entries = none ↔ (givenNames entries).Nodup ∧ (givenNames entries).Disjoint inUse := by
  induction entries generalizing inUse with
  | nil => simp [clash?, givenNames]
  | cons e entries ih =>
    cases hname : e.route.name with
    | none =>
      have hcons : givenNames (e :: entries) = givenNames entries := List.filterMap_cons_none hname
      rw [clash?_cons_of_unnamed hname, ih, hcons]
    | some name =>
      have hcons : givenNames (e :: entries) = name :: givenNames entries := List.filterMap_cons_some hname
      rw [clash?_cons_of_name hname, hcons, List.nodup_cons, List.disjoint_cons_left]
      split
      · rename_i hmem
        simp [hmem]
      · rename_i hmem
        rw [ih, List.disjoint_cons_right]
        tauto

/-- names are all different when the proper ones are and the empty one does not come twice -/
theorem nodup_iff_proper {names : List Text} :
    names.Nodup ↔ (names.filter (!·.isEmpty)).Nodup ∧ names.count [] ≤ 1 := by
  simp only [List.nodup_iff_count_le_one]
  refine ⟨?_, ?_⟩
  · intro h
    exact ⟨fun name => (List.filter_sublist.count_le name).trans (h name), h []⟩
  · intro h name
    obtain ⟨hproper, hempty⟩ := h
    cases name with
    | nil => exact hempty
    | cons c name =>
      have hcount := hproper (c :: name)
      rwa [List.count_filter rfl] at hcount

/-- the routes of the batch that bear the empty name -/
theorem count_givenNames (entries : List Entry) :
    (givenNames entries).count [] = (entries.map Entry.route).countP (·.name = some []) := by
  rw [givenNames, List.count_filterMap, List.countP_map]
  apply List.countP_congr
  intro e _
  simp

/-- **A batch clashes with nothing** when the proper names stay different and the empty name does not come twice in it -/
theorem clash?_build_eq_none_iff {old new : List Entry} (hold : (properNames old).Nodup) :
    clash? (Table.build old).names new = none ↔
      (properNames (old ++ new)).Nodup ∧ (new.map Entry.route).countP (·.name = some []) ≤ 1 := by
  have happend : properNames (old ++ new) = properNames old ++ properNames new := List.filterMap_append
  have hdisjoint : (givenNames new).Disjoint (Table.build old).names ↔ (properNames old).Disjoint (properNames new) := by
    rw [names_build, List.disjoint_comm]
    simp only [List.Disjoint, List.mem_reverse, mem_properNames, mem_givenNames]
    refine ⟨?_, ?_⟩
    · intro h name hn hm
      exact h hn hm.2
    · intro h name hn hm
      exact h hn ⟨hn.1, hm⟩
  rw [clash?_eq_none_iff_nodup, hdisjoint, nodup_iff_proper, ← properNames_eq_filter, count_givenNames, happend,
    List.nodup_append']
  tauto

/-! ## The two ways -/

def grown (r : Router) (entries : List Entry) : Router := { r with table := .build (r.table.entries ++ entries) }

@[simp] theorem grown_config (r : Router) (entries : List Entry) : (r.grown entries).config = r.config := rfl

@[simp] theorem grown_entries (r : Router) (entries : List Entry) :
    (r.grown entries).table.entries = r.table.entries ++ entries := rfl

@[simp] theorem grown_grown (r : Router) (before after : List Entry) :
    (r.grown before).grown after = r.grown (before ++ after) := by
  simp [grown, Table.build]

theorem Indexed.grown_nil {r : Router} (hr : Indexed r) : r.grown [] = r := by
  rw [grown, List.append_nil, ← hr.built]

/-- **What a batch asks of its routes**: to compile, to leave the proper names different, and one empty name at most -/
theorem register_ok_iff {r s : Router} (hr : Indexed r) {routes : List Route} : r.register routes = .ok s ↔
    (∃ entries, routes.mapM (entryOf r.config) = .ok entries ∧ (properNames (r.table.entries ++ entries)).Nodup ∧
      s = r.grown entries) ∧ routes.countP (·.name = some []) ≤ 1 := by
  have hclash : ∀ entries, routes.mapM (entryOf r.config) = .ok entries → (clash? r.table.names entries = none ↔
      (properNames (r.table.entries ++ entries)).Nodup ∧ routes.countP (·.name = some []) ≤ 1) := by
    intro entries hentries
    rw [hr.built, clash?_build_eq_none_iff hr.named, map_route_of_mapM hentries]
    rfl
  refine ⟨?_, ?_⟩
  · intro h
    obtain ⟨entries, hentries, hnone, hs⟩ := register_ok h
    obtain ⟨hnamed, hempty⟩ := (hclash entries hentries).1 hnone
    exact ⟨⟨entries, hentries, hnamed, hs⟩, hempty⟩
  · intro h
    obtain ⟨⟨entries, hentries, hnamed, rfl⟩, hempty⟩ := h
    have hnone := (hclash entries hentries).2 ⟨hnamed, hempty⟩
    simp only [register, hentries, hnone, grown]

/-- a single route, which cannot bear the empty name twice -/
theorem register_singleton_iff {r s : Router} (hr : Indexed r) {route : Route} : r.register [route] = .ok s ↔
    ∃ e, entryOf r.config route = .ok e ∧ (properNames (r.table.entries ++ [e])).Nodup ∧ s = r.grown [e] := by
  have honce : [route].countP (·.name = some []) ≤ 1 := List.countP_le_length
  rw [register_ok_iff hr]
  refine ⟨?_, ?_⟩
  · intro h
    obtain ⟨⟨entries, hentries, hnamed, hs⟩, -⟩ := h
    obtain ⟨e, tail, he, htail, rfl⟩ := List.forall₂_cons_left_iff.1 (mapM_ok_iff.1 hentries)
    obtain rfl := List.forall₂_nil_left_iff.1 htail
    exact ⟨e, he, hnamed, hs⟩
  · intro h
    obtain ⟨e, he, hnamed, hs⟩ := h
    exact ⟨⟨[e], by rw [mapM_cons_ok he]; rfl, hnamed, hs⟩, honce⟩

theorem addEach_cons_of_error {r : Router} {route : Route} {e : Error} (h : r.register [route] = .error e)
    (routes : List Route) : r.addEach (route :: routes) = ⟨.error e, r, []⟩ := by
  rw [addEach, add, addAll, h]

theorem addEach_cons_of_ok {r s : Router} {route : Route} (h : r.register [route] = .ok s) (routes : List Route) :
    r.addEach (route :: routes) =
      { s.addEach routes with events := .added route :: (s.addEach routes).events } := by
  rw [addEach, add, addAll, h]
  rfl

/-- the step puts routes behind those of the router and logs one record for each, in order; it logs nothing else -/
def LogsAdded {α : Type} (r : Router) (step : Step α) : Prop :=
  ∃ added, step.router.routes = r.routes ++ added ∧ step.events = added.map .added

theorem logsAdded_addAll (r : Router) (routes : List Route) : LogsAdded r (r.addAll routes) := by
  rcases addAll_cases r routes with ⟨s, hs, h⟩ | ⟨e, -, h⟩
  · rw [h]
    exact ⟨routes, routes_register hs, rfl⟩
  · rw [h]
    exact ⟨[], (List.append_nil _).symm, rfl⟩

/-- routes that come one by one are logged up to the one that is refused -/
theorem logsAdded_addEach (r : Router) (routes : List Route) : LogsAdded r (r.addEach routes) := by
  induction routes generalizing r with
  | nil => exact ⟨[], (List.append_nil _).symm, rfl⟩
  | cons route routes ih =>
    cases hfirst : r.register [route] with
    | error e =>
      rw [addEach_cons_of_error hfirst]
      exact ⟨[], (List.append_nil _).symm, rfl⟩
    | ok s =>
      obtain ⟨added, hadded, hevents⟩ := ih s
      rw [addEach_cons_of_ok hfirst]
      refine ⟨route :: added, ?_, congrArg (Event.added route :: ·) hevents⟩
      rw [hadded, routes_register hfirst, List.append_assoc, List.singleton_append]

/-- **What registering one by one asks of the routes**: the same, whatever the count of empty names -/
theorem addEach_ok_iff {r : Router} (hr : Indexed r) {routes : List Route} :
    (r.addEach routes).answer = .ok () ↔
    ∃ entries, routes.mapM (entryOf r.config) = .ok entries ∧ (properNames (r.table.entries ++ entries)).Nodup := by
  induction routes generalizing r with
  | nil =>
    refine ⟨?_, ?_⟩
    · intro _
      exact ⟨[], rfl, by rw [List.append_nil]; exact hr.named⟩
    · intro _
      rfl
  | cons route routes ih =>
    cases hfirst : r.register [route] with
    | error e =>
      rw [addEach_cons_of_error hfirst]
      refine ⟨?_, ?_⟩
      · intro h
        cases h
      · intro h
        obtain ⟨entries, hentries, hnamed⟩ := h
        obtain ⟨f, tail, hf, -, rfl⟩ := List.forall₂_cons_left_iff.1 (mapM_ok_iff.1 hentries)
        have hsub : (r.table.entries ++ [f]).Sublist (r.table.entries ++ f :: tail) := by simp
        have hok := (register_singleton_iff hr).2 ⟨f, hf, hnamed.sublist (hsub.filterMap _), rfl⟩
        simp [hok] at hfirst
    | ok s =>
      have hs := indexed_register hr hfirst
      obtain ⟨f, hf, -, rfl⟩ := (register_singleton_iff hr).1 hfirst
      rw [addEach_cons_of_ok hfirst, ih hs, mapM_cons_ok hf]
      simp only [grown_config, grown_entries, List.append_assoc, List.singleton_append, map_eq_ok_iff]
      refine ⟨?_, ?_⟩
      · intro h
        obtain ⟨tail, htail, hnamed⟩ := h
        exact ⟨f :: tail, ⟨tail, htail, rfl⟩, hnamed⟩
      · intro h
        obtain ⟨_, ⟨tail, htail, rfl⟩, hnamed⟩ := h
        exact ⟨tail, htail, hnamed⟩

/-- what registering one by one leaves behind and logs -/
theorem addEach_eq {r : Router} (hr : Indexed r) {routes : List Route} {entries : List Entry}
    (hentries : routes.mapM (entryOf r.config) = .ok entries)
    (hnamed : (properNames (r.table.entries ++ entries)).Nodup) :
    r.addEach routes = ⟨.ok (), r.grown entries, routes.map .added⟩ := by
  induction routes generalizing r entries with
  | nil =>
    obtain rfl := List.forall₂_nil_left_iff.1 (mapM_ok_iff.1 hentries)
    rw [hr.grown_nil]
    rfl
  | cons route routes ih =>
    obtain ⟨f, tail, hf, htail, rfl⟩ := List.forall₂_cons_left_iff.1 (mapM_ok_iff.1 hentries)
    have hsub : (r.table.entries ++ [f]).Sublist (r.table.entries ++ f :: tail) := by simp
    have hfirst := (register_singleton_iff hr).2 ⟨f, hf, hnamed.sublist (hsub.filterMap _), rfl⟩
    have hrest : (r.grown [f]).addEach routes = ⟨.ok (), (r.grown [f]).grown tail, routes.map .added⟩ :=
      ih (indexed_register hr hfirst) (mapM_ok_iff.2 htail) (by simpa using hnamed)
    rw [addEach_cons_of_ok hfirst, hrest, grown_grown]
    rfl

/-- a batch that is registered comes to the same one by one -/
theorem addEach_of_register {r s : Router} (hr : Indexed r) {routes : List Route} (h : r.register routes = .ok s) :
    r.addEach routes = ⟨.ok (), s, routes.map .added⟩ := by
  obtain ⟨⟨entries, hentries, hnamed, rfl⟩, -⟩ := (register_ok_iff hr).1 h
  exact addEach_eq hr hentries hnamed

/-- **A batch and its routes one by one** come to the same, but for a batch with more than one empty name: that one is
refused, for a name that no route is registered under -/
theorem addGroup_iff_addEach {r : Router} (hr : Reachable r) (group : Group) :
    ((∃ routes, (r.addGroup group).answer = .ok routes) ↔
      (r.addEach group.allRoutes).answer = .ok () ∧ group.allRoutes.countP (·.name = some []) ≤ 1) ∧
    ∀ routes, (r.addGroup group).answer = .ok routes →
      (r.addEach group.allRoutes).router = (r.addGroup group).router ∧
      (r.addEach group.allRoutes).events = (r.addGroup group).events := by
  have hanswer : (∃ routes, (r.addGroup group).answer = .ok routes) ↔ ∃ s, r.register group.allRoutes = .ok s := by
    rw [addGroup]
    rcases addAll_cases r group.allRoutes with ⟨s, hs, h⟩ | ⟨e, he, h⟩
    · simp [h, hs]
    · simp [h, he]
  refine ⟨?_, ?_⟩
  · rw [hanswer, addEach_ok_iff hr.indexed]
    simp only [register_ok_iff hr.indexed]
    refine ⟨?_, ?_⟩
    · intro h
      obtain ⟨s, ⟨entries, hentries, hnamed, -⟩, hempty⟩ := h
      exact ⟨⟨entries, hentries, hnamed⟩, hempty⟩
    · intro h
      obtain ⟨⟨entries, hentries, hnamed⟩, hempty⟩ := h
      exact ⟨r.grown entries, ⟨entries, hentries, hnamed, rfl⟩, hempty⟩
  · intro routes hroutes
    obtain ⟨s, hs⟩ := hanswer.1 ⟨routes, hroutes⟩
    obtain ⟨⟨entries, hentries, hnamed, rfl⟩, -⟩ := (register_ok_iff hr.indexed).1 hs
    rw [addEach_eq hr.indexed hentries hnamed, addGroup, addAll, hs]
    exact ⟨rfl, rfl⟩

/-- a nested group with one empty name, behind a route that has the empty name as well -/
theorem addGroup_iff_addEach_nested :
    let r := run (.empty .standard) [.add ⟨0, some Method.get, some ['/'], .function [], some []⟩]
    let group := Group.mk [] [⟨1, some Method.post, some "/a".toList, .function [], some ['n']⟩]
      [.mk "/b".toList [⟨2, some Method.all, some "/b/\x7bx\x7d".toList, .function [], some []⟩] []]
    Reachable r ∧ group.allRoutes.countP (·.name = some []) = 1 ∧
    ((∃ routes, (r.addGroup group).answer = .ok routes) ↔
      (r.addEach group.allRoutes).answer = .ok () ∧ group.allRoutes.countP (·.name = some []) ≤ 1) ∧
    ∀ routes, (r.addGroup group).answer = .ok routes →
      (r.addEach group.allRoutes).router = (r.addGroup group).router ∧
      (r.addEach group.allRoutes).events = (r.addGroup group).events :=
  ⟨⟨.standard, _, rfl⟩, rfl, addGroup_iff_addEach ⟨.standard, _, rfl⟩ _⟩

/-- two routes with the empty name can be registered one by one, yet not together -/
theorem addGroup_refuses_second_empty_name :
    let r := Router.empty .standard
    let group := Group.mk [] [⟨0, some Method.get, some "/a".toList, .function [], some []⟩,
      ⟨1, some Method.get, some "/b".toList, .function [], some []⟩] []
    Reachable r ∧ (r.addEach group.allRoutes).answer = .ok () ∧
      (r.addGroup group).answer = .error (.duplicateName []) ∧ r.routes = [] := by
  refine ⟨⟨.standard, [], rfl⟩, ?_, ?_, rfl⟩
  · decide +kernel
  · -- routes cannot be compared, so the answer is looked at without them
    exact (map_eq_error_iff (g := fun _ => ())).1 (by decide +kernel)

end UriRouting.Router
