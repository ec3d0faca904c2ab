/-
Taking routes out again. Removals do not depend on their order: after some of them a router has the entries whose routes
none of them names (`run_removals`). So a group that was registered can be taken back, route by route and in any order, and
the router is the one it was before, with all of its indexes.

- `remove_router`: what a removal leaves, whether or not the route was there.
- `run_removals`: what a history of removals leaves.
- `run_removals_grown`: what it leaves of a batch, the routes from before untouched.
- `removals_undo_addGroup`: a group registered and taken back.
-/
import UriRouting.Proofs.Router.OneByOne

namespace UriRouting.Router

open Results

/-- the routes taken out, the entries of a router that are left -/
def leftBy (removed : List Route) (entries : List Entry) : List Entry :=
  entries.filter fun e => !removed.any (e.route.isSame ·)

/-- what is one route with a third is one route with neither or with both of two that are one -/
theorem isSame_congr {s t : Route} (h : s.isSame t = true) (u : Route) : s.isSame u = t.isSame u := by
  rw [Route.isSame, Route.isSame, beq_iff_eq.1 h]

theorem leftBy_nil (entries : List Entry) : leftBy [] entries = entries := by simp [leftBy]

theorem leftBy_cons (route : Route) (removed : List Route) (entries : List Entry) :
    leftBy (route :: removed) entries = leftBy removed (entries.filter (!·.route.isSame route)) := by
  rw [leftBy, leftBy, List.filter_filter]
  apply List.filter_congr
  intro e _
  rw [List.any_cons, Bool.not_or, Bool.and_comm]

/-- the routes of the entries that are left -/
theorem map_route_leftBy (removed : List Route) (entries : List Entry) : (leftBy removed entries).map Entry.route =
    (entries.map Entry.route).filter fun s => !removed.any (s.isSame ·) := by
  rw [leftBy, List.filter_map]
  rfl

/-- removals do not reach the entries of other routes -/
theorem leftBy_append {removed : List Route} {old : List Entry}
    (h : ∀ route ∈ removed, ∀ e ∈ old, e.route.isSame route = false) (entries : List Entry) :
    leftBy removed (old ++ entries) = old ++ leftBy removed entries := by
  have hold : old.filter (fun e => !removed.any (e.route.isSame ·)) = old := by
    apply List.filter_eq_self.2
    intro e he
    rw [Bool.not_eq_true', List.any_eq_false]
    intro route hroute
    rw [h route hroute e he]
    decide
  rw [leftBy, List.filter_append, hold, leftBy]

/-- where each of the routes is taken out, nothing is left -/
theorem leftBy_eq_nil {removed : List Route} {entries : List Entry} (h : ∀ e ∈ entries, e.route ∈ removed) :
    leftBy removed entries = [] := by
  apply List.filter_eq_nil_iff.2
  intro e he
  rw [Bool.not_eq_true', Bool.not_eq_false, List.any_eq_true]
  exact ⟨e.route, h e he, by simp [Route.isSame]⟩

/-! ## Removals -/

/-- **What a removal leaves**: the entries of other routes, indexed anew -/
theorem Indexed.remove_router {r : Router} (hr : Indexed r) (route : Route) : (r.remove route).router = r.without route := by
  rw [remove]
  split
  · rfl
  · rename_i hnot
    have hall : r.table.entries.filter (!·.route.isSame route) = r.table.entries := by
      apply List.filter_eq_self.2
      intro e he
      rw [Bool.not_eq_true']
      apply Bool.eq_false_iff.2
      intro hsame
      exact hnot (List.any_eq_true.2 ⟨e, he, hsame⟩)
    rw [without, hall, ← hr.built]

/-- **What removals leave**, in whatever order they come: the entries of routes that none of them names -/
theorem Indexed.run_removals {r : Router} (hr : Indexed r) (removed : List Route) :
    r.run (removed.map .remove) = { r with table := .build (leftBy removed r.table.entries) } := by
  induction removed generalizing r with
  | nil => rw [leftBy_nil, ← hr.built]; rfl
  | cons route removed ih =>
    have hstep : r.step (.remove route) = r.without route := hr.remove_router route
    have hwithout : Indexed (r.without route) := hstep ▸ indexed_step hr (.remove route)
    rw [List.map_cons, run_cons, hstep, ih hwithout, leftBy_cons]
    rfl

/-- what a removal answers after others: whether the route was there, and is not one of those taken out -/
theorem Indexed.remove_after {r : Router} (hr : Indexed r) (removed : List Route) (route : Route) :
    ((r.run (removed.map .remove)).remove route).answer =
      .ok (r.contains route && !removed.any (route.isSame ·)) := by
  have hrun := indexed_run hr (removed.map .remove)
  rw [hrun.reflects.removal, ← contains_eq, hr.run_removals, contains, contains]
  have hleft : ∀ e : Entry, (!removed.any (e.route.isSame ·) && e.route.isSame route) =
      (e.route.isSame route && !removed.any (route.isSame ·)) := by
    intro e
    cases hsame : e.route.isSame route with
    | false => rw [Bool.and_false, Bool.false_and]
    | true => simp only [isSame_congr hsame, Bool.and_true, Bool.true_and]
  have hentries : (Table.build (leftBy removed r.table.entries)).entries = leftBy removed r.table.entries := rfl
  rw [hentries, leftBy, List.any_filter]
  simp only [hleft]
  cases removed.any (route.isSame ·) with
  | false => simp only [Bool.not_false, Bool.and_true]
  | true => simp only [Bool.not_true, Bool.and_false, List.any_eq_false.2 (fun _ _ => Bool.false_ne_true)]

/-! ## A group taken back -/

theorem routes_grown (r : Router) (entries : List Entry) : (r.grown entries).routes = r.routes ++ entries.map Entry.route :=
  List.map_append

/-- **What is left of a batch**: its entries that none of the removals names, behind the entries from before -/
theorem run_removals_grown {r : Router} {entries : List Entry} (hgrown : Indexed (r.grown entries)) {removed : List Route}
    (hnew : ∀ route ∈ removed, r.contains route = false) :
    (r.grown entries).run (removed.map .remove) = r.grown (leftBy removed entries) := by
  have hold : ∀ route ∈ removed, ∀ e ∈ r.table.entries, e.route.isSame route = false := by
    intro route hroute e he
    have hnone := hnew route hroute
    rw [contains, List.any_eq_false] at hnone
    exact Bool.eq_false_iff.2 (hnone e he)
  rw [hgrown.run_removals, grown_entries, leftBy_append hold]
  rfl

/-- **A group that was registered can be taken back.** None of its routes was registered before. Each of them is taken out
once or more often, in any order: then the router is as it was. On the way there, what is left of the group stands behind
the other routes in its order, and the first removal of a route, and only the first, finds it. -/
theorem removals_undo_addGroup {r : Router} (hr : Reachable r) {group : Group}
    (hnew : ∀ route ∈ group.allRoutes, r.contains route = false) {routes : List Route}
    (hadded : (r.addGroup group).answer = .ok routes) {order : List Route}
    (horder : ∀ route, route ∈ order ↔ route ∈ group.allRoutes) :
    (r.addGroup group).router.run (order.map .remove) = r ∧
    ∀ before route after, order = before ++ route :: after →
      Reflects ((r.addGroup group).router.run (before.map .remove))
        (r.routes ++ group.allRoutes.filter fun s => !before.any (s.isSame ·)) ∧
      (((r.addGroup group).router.run (before.map .remove)).remove route).answer =
        .ok (!before.any (route.isSame ·)) := by
  obtain ⟨s, hs, hstep⟩ : ∃ s, r.register group.allRoutes = .ok s ∧ (r.addGroup group).router = s := by
    rcases addAll_cases r group.allRoutes with ⟨s, hs, h⟩ | ⟨e, -, h⟩
    · exact ⟨s, hs, congrArg Step.router h⟩
    · cases hadded.symm.trans (congrArg Step.answer h)
  have hgrown := indexed_register hr.indexed hs
  obtain ⟨⟨entries, hentries, -, rfl⟩, -⟩ := (register_ok_iff hr.indexed).1 hs
  have hbatch : entries.map Entry.route = group.allRoutes := map_route_of_mapM hentries
  rw [hstep]
  refine ⟨?_, ?_⟩
  · have hnone : leftBy order entries = [] := by
      apply leftBy_eq_nil
      intro e he
      exact (horder e.route).2 (hbatch ▸ List.mem_map_of_mem he)
    calc (r.grown entries).run (order.map .remove)
        = r.grown (leftBy order entries) := run_removals_grown hgrown fun route h => hnew route ((horder route).1 h)
      _ = r.grown [] := by rw [hnone]
      _ = r := hr.indexed.grown_nil
  · intro before route after hsplit
    have hsub : ∀ s ∈ before ++ route :: after, s ∈ group.allRoutes := fun s h => (horder s).1 (hsplit ▸ h)
    refine ⟨?_, ?_⟩
    · have hbefore : ∀ s ∈ before, r.contains s = false := fun s h => hnew s (hsub s (List.mem_append_left _ h))
      have hroutes : ((r.grown entries).run (before.map .remove)).routes =
          r.routes ++ group.allRoutes.filter fun s => !before.any (s.isSame ·) := by
        rw [run_removals_grown hgrown hbefore, routes_grown, map_route_leftBy, hbatch]
      exact hroutes ▸ (indexed_run hgrown (before.map .remove)).reflects
    · have hroute : route ∈ group.allRoutes := hsub route (List.mem_append_right before List.mem_cons_self)
      have hin : (r.grown entries).contains route = true := by
        rw [contains_eq, routes_grown, hbatch, List.any_append, Bool.or_eq_true]
        exact .inr (List.any_eq_true.2 ⟨route, hroute, by simp [Route.isSame]⟩)
      rw [hgrown.remove_after, hin, Bool.true_and]

/-- a group with one object in it twice, once in a nested group, and a look-alike registered before; last route first -/
theorem removals_undo_addGroup_twice :
    let route : Nat → Route := fun serial => ⟨serial, some Method.get, some "/a".toList, .function [], none⟩
    let r := run (.empty .standard) [.add (route 0)]
    let group := Group.mk [] [route 1, route 2] [.mk ['/'] [route 1] []]
    let order := [route 2, route 1, route 1]
    Reachable r ∧ (∀ s ∈ group.allRoutes, r.contains s = false) ∧ (∃ routes, (r.addGroup group).answer = .ok routes) ∧
    (∀ s, s ∈ order ↔ s ∈ group.allRoutes) ∧ (r.addGroup group).router.run (order.map .remove) = r := by
  intro route r group order
  have hr : Reachable r := ⟨.standard, _, rfl⟩
  have hnew : ∀ s ∈ group.allRoutes, r.contains s = false := by decide +kernel
  obtain ⟨routes, hadded⟩ := exists_of_isOk (r := (r.addGroup group).answer) (by decide +kernel)
  have horder : ∀ s, s ∈ order ↔ s ∈ group.allRoutes := fun s =>
    (List.Perm.swap (route 1) (route 2) [route 1] : order.Perm group.allRoutes).mem_iff
  exact ⟨hr, hnew, ⟨routes, hadded⟩, horder, (removals_undo_addGroup hr hnew hadded horder).1⟩

end UriRouting.Router
