/-
The context path is transparent. Where a router is mounted does not reach its table: the same changes leave the same routes,
refuse the same with the same errors and log the same records, wherever it is (`run_mountedAt`). The context path is taken
off request paths at a slash, once, and put in front of rendered URIs, and this is all that it does.

- `step_mountedAt`, `run_mountedAt`: moving a router commutes with every change, and so with a history.
- `strip_below`, `strip_mount`, `strip_outside`: what a mounted router takes off a path.
- `mounted_transparent`: a mounted router against one that is mounted nowhere.
-/
import UriRouting.Proofs.Router.RoundTrip

namespace UriRouting.Router

/-! ## Moving a router -/

def placedAt (config : Config) (path : Text) : Config := { config with contextPath := path }

def mountedAt (r : Router) (path : Text) : Router := { r with config := placedAt r.config path }

/-- what an operation shows: its answer and its log records -/
def Step.shown {α : Type} (s : Step α) : Except Error α × List Event := (s.answer, s.events)

@[simp] theorem mountedAt_table (r : Router) (path : Text) : (r.mountedAt path).table = r.table := rfl

@[simp] theorem mountedAt_config (r : Router) (path : Text) : (r.mountedAt path).config = placedAt r.config path := rfl

@[simp] theorem compile_placedAt (config : Config) (path template : Text) :
    Pattern.compile (placedAt config path) template = Pattern.compile config template := by
  apply Pattern.compile_congr
  · rfl
  · intro tokens _ name constraint _
    cases constraint <;> rfl

@[simp] theorem entryOf_placedAt (config : Config) (path : Text) : entryOf (placedAt config path) = entryOf config := by
  funext route
  simp only [entryOf, compile_placedAt]

theorem register_mountedAt (r : Router) (path : Text) (routes : List Route) :
    (r.mountedAt path).register routes = (r.register routes).map (·.mountedAt path) := by
  simp only [register, mountedAt_config, mountedAt_table, entryOf_placedAt]
  cases routes.mapM (entryOf r.config) with
  | error e => rfl
  | ok entries =>
    cases hclash : clash? r.table.names entries with
    | some name => simp only [hclash]; rfl
    | none => simp only [hclash]; rfl

/-- **A batch does the same wherever the router is mounted** -/
theorem addAll_mountedAt (r : Router) (path : Text) (routes : List Route) :
    ((r.mountedAt path).addAll routes).shown = (r.addAll routes).shown ∧
      ((r.mountedAt path).addAll routes).router = (r.addAll routes).router.mountedAt path := by
  simp only [addAll, register_mountedAt]
  cases r.register routes <;> exact ⟨rfl, rfl⟩

theorem remove_mountedAt (r : Router) (path : Text) (route : Route) :
    ((r.mountedAt path).remove route).shown = (r.remove route).shown ∧
      ((r.mountedAt path).remove route).router = (r.remove route).router.mountedAt path := by
  have hcontains : (r.mountedAt path).contains route = r.contains route := rfl
  simp only [remove, hcontains]
  split <;> exact ⟨rfl, rfl⟩

/-- **Every change commutes with moving the router** -/
theorem step_mountedAt (r : Router) (path : Text) (c : Change) : (r.mountedAt path).step c = (r.step c).mountedAt path := by
  cases c with
  | add route => exact (addAll_mountedAt r path [route]).2
  | addGroup group => exact (addAll_mountedAt r path group.allRoutes).2
  | remove route => exact (remove_mountedAt r path route).2

theorem run_mountedAt (r : Router) (path : Text) (cs : List Change) : (r.mountedAt path).run cs = (r.run cs).mountedAt path := by
  induction cs generalizing r with
  | nil => rfl
  | cons c cs ih => rw [run_cons, run_cons, step_mountedAt, ih]

/-! ## Taking the context path off -/

theorem after?_isSome_iff {start t : Text} : (Text.after? start t).isSome = true ↔ start <+: t := by
  refine ⟨?_, ?_⟩
  · intro h
    obtain ⟨rest, hrest⟩ := Option.isSome_iff_exists.1 h
    exact ⟨rest, (Text.eq_append_of_after? hrest).symm⟩
  · rintro ⟨rest, rfl⟩
    rw [Text.after?_append]
    rfl

section Stripping

variable {r : Router} (hmount : r.mount ≠ [])

include hmount

/-- the context path itself stands for the root -/
theorem strip_mount : r.strip r.mount = ['/'] := by
  rw [strip, if_neg (by simpa using hmount), if_pos rfl]

/-- **The context path is taken off at a slash** -/
theorem strip_below (rest : Text) : r.strip (r.mount ++ '/' :: rest) = '/' :: rest := by
  have hlonger : r.mount ++ '/' :: rest ≠ r.mount := by simp
  have hstart : r.mount ++ ['/'] <+: r.mount ++ '/' :: rest := ⟨rest, by simp⟩
  rw [strip, if_neg (by simpa using hmount), if_neg hlonger, if_pos (after?_isSome_iff.2 hstart), List.drop_left]

/-- **It is taken off nowhere else** -/
theorem strip_outside {path : Text} (hself : path ≠ r.mount) (hbelow : ¬r.mount ++ ['/'] <+: path) : r.strip path = path := by
  rw [strip, if_neg (by simpa using hmount), if_neg hself, if_neg (mt after?_isSome_iff.1 hbelow)]

end Stripping

theorem strip_of_mount_nil {r : Router} (hmount : r.mount = []) (path : Text) : r.strip path = path := by
  rw [strip, hmount]
  rfl

/-- a lookup depends on the table and the stripped path alone -/
theorem find_shown_congr {r s : Router} (htable : r.table = s.table) {path other : Text}
    (hstrip : r.strip path = s.strip other) (method : Text) :
    (r.find path method).shown = (s.find other method).shown := by
  simp only [find, lookup, Step.shown, htable, hstrip]

/-! ## Mounted somewhere and nowhere -/

/-- `r` is `s` seen from outside, mounted at the path `base` -/
structure MountOf (r s : Router) (base : Text) : Prop where
  add : ∀ route, (r.add route).shown = (s.add route).shown
  addGroup : ∀ group, (r.addGroup group).shown = (s.addGroup group).shown
  remove : ∀ route, (r.remove route).shown = (s.remove route).shown
  routesFor : ∀ method, r.routesFor method = s.routesFor method
  named : ∀ name, r.table.route? name = s.table.route? name
  find_below : ∀ path method, path.head? = some '/' → (r.find (base ++ path) method).shown = (s.find path method).shown
  find_base : ∀ method, (r.find base method).shown = (s.find ['/'] method).shown
  find_outside : ∀ path method, path ≠ base → ¬base ++ ['/'] <+: path →
    (r.find path method).shown = (s.find path method).shown
  uriFor : ∀ target parameters, r.uriFor target parameters = (s.uriFor target parameters).map (Uri.join base)

/-- a rendered URI is that of the router mounted nowhere behind the context path -/
theorem uriFor_mountedAt (r : Router) (target : Text) (parameters : Uri.Parameters) :
    r.uriFor target parameters = ((r.mountedAt []).uriFor target parameters).map (Uri.join r.mount) := by
  have htemplate : (r.mountedAt []).templateOf target = r.templateOf target := rfl
  simp only [uriFor, mountedAt_config, compile_placedAt, htemplate]
  split
  · rfl
  · cases Pattern.compile r.config (r.templateOf target) with
    | error e => rfl
    | ok pattern => cases hrender : Uri.render pattern.tokens parameters <;> simp only [hrender] <;> rfl

theorem mountOf_mountedAt {r : Router} (hmount : r.mount ≠ []) : MountOf r (r.mountedAt []) r.mount := by
  have hstrip : ∀ path, (r.mountedAt []).strip path = path := strip_of_mount_nil rfl
  refine ⟨?_, ?_, ?_, fun _ => rfl, fun _ => rfl, ?_, ?_, ?_, uriFor_mountedAt r⟩
  · intro route
    exact (addAll_mountedAt r [] [route]).1.symm
  · intro group
    exact (addAll_mountedAt r [] group.allRoutes).1.symm
  · intro route
    exact (remove_mountedAt r [] route).1.symm
  · intro path method hslash
    obtain ⟨rest, rfl⟩ := List.head?_eq_some_iff.1 hslash
    exact find_shown_congr (mountedAt_table r []).symm ((strip_below hmount rest).trans (hstrip _).symm) method
  · intro method
    exact find_shown_congr (mountedAt_table r []).symm ((strip_mount hmount).trans (hstrip _).symm) method
  · intro path method hself hbelow
    exact find_shown_congr (mountedAt_table r []).symm ((strip_outside hmount hself hbelow).trans (hstrip _).symm) method

/-- **The context path is transparent.** Two routers with the same history, one mounted at a path and the other nowhere,
answer the same and log the same, but for the context path itself: a lookup takes it off, and a rendered URI has it in
front. -/
theorem mounted_transparent (config : Config) (cs : List Change) (hmount : config.contextPath.dropTrailing '/' ≠ []) :
    MountOf (run (.empty config) cs) (run (.empty { config with contextPath := [] }) cs)
      (config.contextPath.dropTrailing '/') := by
  have hnowhere : run (.empty { config with contextPath := [] }) cs = (run (.empty config) cs).mountedAt [] :=
    run_mountedAt (.empty config) [] cs
  have hbase : (run (.empty config) cs).mount = config.contextPath.dropTrailing '/' := by
    rw [mount, config_run]
    rfl
  rw [hnowhere, ← hbase]
  exact mountOf_mountedAt (hbase ▸ hmount)

/-- two slashes at the end of the context path, and a history that registers, clashes and removes -/
theorem mounted_transparent_app :
    let config : Config := { Config.standard with contextPath := "/app//".toList }
    let page : Route := ⟨0, some Method.get, some "/page/\x7bx\x7d".toList, .function [], some ['p']⟩
    let home : Route := ⟨1, some Method.get, some "/".toList, .function [], some ['p']⟩
    let cs : List Change := [.add page, .add home, .remove home]
    config.contextPath.dropTrailing '/' = "/app".toList ∧
      MountOf (run (.empty config) cs) (run (.empty .standard) cs) "/app".toList :=
  ⟨rfl, mounted_transparent { Config.standard with contextPath := "/app//".toList } _ (by decide)⟩

end UriRouting.Router
