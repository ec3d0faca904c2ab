/-
A router is the plain list of its history. The history of a run keeps the routes of the registrations that succeed, in
order, and drops a route wherever it stands once it is taken out (`survivors`). `Reflects` says that everything a router
shows can be read off a list of routes: the listing and its length, membership and the answer to a removal, the routes for
a method, the name lookup, and what a request finds.

Results:
- `routes_run`: the routes after a run are those of the start without the ones taken out, and then the survivors.
- `run_reflects`: after any run of an empty router, it reflects the survivors.
-/
import UriRouting.Proofs.Router.Registry

namespace UriRouting.Router

open Results

/-! ## The plain history -/

/-- the routes that a change puts in: those of a registration that succeeds -/
def gains (r : Router) : Change → List Route
  | .add route => match (r.add route).answer with
    | .ok _ => [route]
    | .error _ => []
  | .addGroup group => match (r.addGroup group).answer with
    | .ok _ => group.allRoutes
    | .error _ => []
  | .remove _ => []

/-- one of the changes takes the route out -/
def takenOut (cs : List Change) (route : Route) : Bool :=
  cs.any fun
    | .remove s => route.isSame s
    | _ => false

/-- the routes of the successful registrations in order, without those taken out since -/
def survivors (r : Router) : List Change → List Route
  | [] => []
  | c :: cs => (gains r c).filter (fun route => !takenOut cs route) ++ survivors (r.step c) cs

/-- what a route's own pattern makes of a path: a match with its parameters, none, or the failure to read one off -/
def attempt (config : Config) (path : Text) (route : Route) : Except Error (Option Match) :=
  match Pattern.compile config (route.template.getD []) with
  | .error e => .error e
  | .ok p => (p.parameters? path).map (Option.map (Match.mk route))

/-- everything that the router shows is read off the list of routes -/
structure Reflects (r : Router) (history : List Route) : Prop where
  routes : r.routes = history
  length : r.table.entries.length = history.length
  contains : ∀ route, r.contains route = history.any (·.isSame route)
  removal : ∀ route, (r.remove route).answer = .ok (history.any (·.isSame route))
  named : ∀ name route, r.table.route? name = some route ↔ route ∈ history ∧ route.name = some name ∧ name ≠ []
  everyMethod : r.routesFor none = history
  oneMethod : ∀ m ∈ Method.known, m ≠ Method.all →
    r.routesFor (some m) = history.filter fun s => s.method = some m ∨ s.method = some Method.all
  allMethod : r.routesFor (some Method.all) = history.filter fun s => s.method = some Method.all
  unknownMethod : ∀ m, m ∉ Method.known → r.routesFor (some m) = []
  found : ∀ path m, (r.find path m).answer =
    ((r.routesFor (some m)).mapM (attempt r.config (r.strip path))).map List.reduceOption

/-! ## What a run leaves -/

theorem config_step (r : Router) (c : Change) : (r.step c).config = r.config := by
  have hbatch : ∀ routes, (r.addAll routes).router.config = r.config := by
    intro routes
    rcases addAll_cases r routes with ⟨s, hs, h⟩ | ⟨e, -, h⟩
    · obtain ⟨entries, -, -, rfl⟩ := register_ok hs
      rw [h]
    · rw [h]
  cases c with
  | add route => exact hbatch [route]
  | addGroup group => exact hbatch group.allRoutes
  | remove route =>
    rw [step, remove]
    split <;> rfl

theorem config_run (r : Router) (cs : List Change) : (r.run cs).config = r.config := by
  induction cs generalizing r with
  | nil => rfl
  | cons c cs ih => rw [run_cons, ih, config_step]

/-- a compiled batch has the routes it was compiled from -/
theorem map_route_of_mapM {config : Config} {routes : List Route} {entries : List Entry}
    (h : routes.mapM (entryOf config) = .ok entries) : entries.map Entry.route = routes := by
  have hrel := mapM_ok_iff.1 h
  clear h
  induction hrel with
  | nil => rfl
  | cons hroute _ ih => rw [List.map_cons, ih, (entryOf_ok hroute).1]

theorem routes_register {r s : Router} {routes : List Route} (h : r.register routes = .ok s) :
    s.routes = r.routes ++ routes := by
  obtain ⟨entries, hentries, -, rfl⟩ := register_ok h
  rw [Router.routes, Table.build, List.map_append, map_route_of_mapM hentries]
  rfl

theorem contains_eq (r : Router) (route : Route) : r.contains route = r.routes.any (·.isSame route) := by
  rw [contains, routes, List.any_map]
  rfl

/-- a change leaves the routes that it does not take out, and puts its gains behind them -/
theorem routes_step (r : Router) (c : Change) :
    (r.step c).routes = r.routes.filter (fun route => !takenOut [c] route) ++ gains r c := by
  have hbatch : ∀ routes, (r.addAll routes).router.routes = r.routes ++
      match (r.addAll routes).answer with
      | .ok _ => routes
      | .error _ => [] := by
    intro routes
    rcases addAll_cases r routes with ⟨s, hs, h⟩ | ⟨e, -, h⟩
    · rw [h]
      exact routes_register hs
    · rw [h]
      exact (List.append_nil _).symm
  have hkeep : r.routes.filter (fun _ => !false) = r.routes := List.filter_eq_self.2 fun _ _ => rfl
  cases c with
  | add route => exact (hbatch [route]).trans (congrArg (· ++ _) hkeep.symm)
  | addGroup group => exact (hbatch group.allRoutes).trans (congrArg (· ++ _) hkeep.symm)
  | remove route =>
    have htaken : ∀ s, takenOut [.remove route] s = s.isSame route := fun s => by simp [takenOut]
    simp only [htaken, gains, List.append_nil, step, remove]
    split
    · rw [without, Router.routes, Table.build, Router.routes, List.filter_map]
      rfl
    · rename_i hnot
      rw [contains_eq, List.any_eq_true] at hnot
      refine (List.filter_eq_self.2 fun s hs => ?_).symm
      rw [Bool.not_eq_true']
      exact Bool.eq_false_iff.2 fun hsame => hnot ⟨s, hs, hsame⟩

/-- a registration that succeeds puts its route last -/
theorem routes_step_add {r : Router} {route : Route} (h : (r.register [route]).isOk = true) :
    (r.step (.add route)).routes = r.routes ++ [route] := by
  obtain ⟨s, hs⟩ := exists_of_isOk h
  rw [step, add, addAll, hs]
  exact routes_register hs

theorem takenOut_cons (c : Change) (cs : List Change) (route : Route) :
    takenOut (c :: cs) route = (takenOut [c] route || takenOut cs route) := by
  simp [takenOut]

/-- **The routes after a run** are those of the start that were not taken out, and behind them the survivors of the run -/
theorem routes_run (r : Router) (cs : List Change) :
    (r.run cs).routes = r.routes.filter (fun route => !takenOut cs route) ++ survivors r cs := by
  induction cs generalizing r with
  | nil => simp [takenOut, survivors]
  | cons c cs ih =>
    have hsplit : ∀ routes : List Route, routes.filter (fun route => !takenOut (c :: cs) route) =
        (routes.filter fun route => !takenOut [c] route).filter fun route => !takenOut cs route := by
      intro routes
      rw [List.filter_filter]
      apply List.filter_congr
      intro route _
      rw [takenOut_cons, Bool.not_or, Bool.and_comm]
    calc
      (r.run (c :: cs)).routes = (r.step c).routes.filter (fun route => !takenOut cs route) ++ survivors (r.step c) cs :=
        ih (r.step c)
      _ = r.routes.filter (fun route => !takenOut (c :: cs) route) ++
          ((gains r c).filter (fun route => !takenOut cs route) ++ survivors (r.step c) cs) := by
        rw [routes_step, List.filter_append, ← hsplit, List.append_assoc]
      _ = r.routes.filter (fun route => !takenOut (c :: cs) route) ++ survivors r (c :: cs) := by
        rw [survivors]

/-! ## What a table shows -/

theorem lookup_eq_some_of_nodup {α β : Type} [BEq α] [LawfulBEq α] {l : List (α × β)} (hl : (l.map Prod.fst).Nodup)
    {k : α} {v : β} : l.lookup k = some v ↔ (k, v) ∈ l := by
  induction l with
  | nil => simp
  | cons p l ih =>
    obtain ⟨hp, hl⟩ := List.nodup_cons.1 hl
    rw [List.lookup_cons, List.mem_cons]
    by_cases hk : k = p.1
    · subst hk
      have hnot : (p.1, v) ∉ l := fun h => hp (List.mem_map.2 ⟨_, h, rfl⟩)
      simp [hnot, Prod.ext_iff, eq_comm]
    · have hk' : (k == p.1) = false := beq_eq_false_iff_ne.2 hk
      simp [hk', ih hl, Prod.ext_iff, hk]

theorem Indexed.candidates {r : Router} (hr : Indexed r) (m : Text) : r.table.candidates m =
    if m ∈ Method.known then r.table.entries.filter (·.route.isVisible m) else [] := by
  rw [hr.built]
  exact candidates_build _ m

/-- a name is that of the one route that bears it -/
theorem Indexed.route?_eq_some {r : Router} (hr : Indexed r) {name : Text} {route : Route} :
    r.table.route? name = some route ↔ route ∈ r.routes ∧ route.name = some name ∧ name ≠ [] := by
  have hnodup : ((r.table.entries.filterMap Table.named?).reverse.map Prod.fst).Nodup := by
    have hnames : (Table.build r.table.entries).names.Nodup := by
      rw [names_build, List.nodup_reverse]
      exact hr.named
    exact hnames
  have hroute : r.table.route? name = (r.table.entries.filterMap Table.named?).reverse.lookup name := by
    rw [hr.built]
    rfl
  rw [hroute, lookup_eq_some_of_nodup hnodup, List.mem_reverse, List.mem_filterMap, Router.routes]
  simp only [List.mem_map, named?_eq, Option.map_eq_some_iff, properName?_eq_some]
  refine ⟨?_, ?_⟩
  · intro h
    obtain ⟨e, he, n, hn, hpair⟩ := h
    obtain ⟨rfl, rfl⟩ := Prod.mk.inj hpair
    exact ⟨⟨e, he, rfl⟩, hn⟩
  · intro h
    obtain ⟨⟨e, he, rfl⟩, hn⟩ := h
    exact ⟨e, he, name, hn, rfl⟩

theorem Indexed.routesFor {r : Router} (hr : Indexed r) (m : Text) : r.routesFor (some m) =
    if m ∈ Method.known then r.routes.filter (·.isVisible m) else [] := by
  rw [Router.routesFor, hr.candidates]
  split
  · rw [Router.routes, List.filter_map]
    rfl
  · rfl

/-- an entry answers for its route's own pattern -/
theorem Indexed.attempt_eq {r : Router} (hr : Indexed r) {e : Entry} (he : e ∈ r.table.entries) (path : Text) :
    attempt r.config path e.route = (e.pattern.parameters? path).map (Option.map (Match.mk e.route)) := by
  obtain ⟨-, template, method, htemplate, -, -, -, hp⟩ := entryOf_ok (hr.compiled e he)
  simp only [attempt, htemplate, Option.getD_some, hp]

theorem matching_eq {config : Config} {path : Text} {entries : List Entry}
    (h : ∀ e ∈ entries, attempt config path e.route = (e.pattern.parameters? path).map (Option.map (Match.mk e.route))) :
    matching path entries = ((entries.map Entry.route).mapM (attempt config path)).map List.reduceOption := by
  induction entries with
  | nil => rfl
  | cons e entries ih =>
    obtain ⟨he, hentries⟩ := List.forall_mem_cons.1 h
    rw [matching, List.map_cons]
    cases hp : e.pattern.parameters? path with
    | error f =>
      rw [hp] at he
      rw [mapM_cons_error he]
      rfl
    | ok found =>
      rw [hp] at he
      rw [mapM_cons_ok he, ih hentries]
      cases found <;> cases (entries.map Entry.route).mapM (attempt config path) <;> rfl

/-- **What a request finds**: of the routes for the method those whose own pattern matches, in order -/
theorem Indexed.lookup_eq {r : Router} (hr : Indexed r) (path m : Text) : r.lookup path m =
    ((r.routesFor (some m)).mapM (attempt r.config (r.strip path))).map List.reduceOption := by
  refine matching_eq fun e he => hr.attempt_eq ?_ _
  rw [hr.candidates] at he
  split at he
  · exact List.mem_of_mem_filter he
  · exact absurd he List.not_mem_nil

theorem Indexed.reflects {r : Router} (hr : Indexed r) : Reflects r r.routes where
  routes := rfl
  length := (List.length_map _).symm
  contains := contains_eq r
  removal := by
    intro route
    rw [remove, ← contains_eq]
    split
    · rename_i h
      rw [h]
    · rename_i h
      rw [Bool.eq_false_iff.2 h]
  named := fun _ _ => hr.route?_eq_some
  everyMethod := rfl
  oneMethod := by
    intro m hm _
    rw [hr.routesFor, if_pos hm]
    apply List.filter_congr
    intro s _
    rw [Bool.eq_iff_iff]
    simp [Route.isVisible]
  allMethod := by
    have hall : Method.all ∈ Method.known := by decide
    rw [hr.routesFor, if_pos hall]
    apply List.filter_congr
    intro s _
    rw [Bool.eq_iff_iff]
    simp [Route.isVisible]
  unknownMethod := by
    intro m hm
    rw [hr.routesFor, if_neg hm]
  found := hr.lookup_eq

/-- **A router is the plain list of its history**, after any run of registrations and removals, failed ones included -/
theorem run_reflects (config : Config) (cs : List Change) :
    Reflects (run (.empty config) cs) (survivors (.empty config) cs) := by
  have hroutes : (run (.empty config) cs).routes = survivors (.empty config) cs := routes_run (.empty config) cs
  rw [← hroutes]
  exact (indexed_run (indexed_empty config) cs).reflects

end UriRouting.Router
