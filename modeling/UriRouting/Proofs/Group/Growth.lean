/-
The routes of a tree of groups, told by its history. Routes are declared and groups are made in any order, in any of the
groups that are there by then. The routes of a group are those declared in it, in that order, and then those of the groups
made in it, in the order they were made; the template of each stands behind all the bases on the way to its group.

- `recorded_step`, `recorded_run`: a forest holds what was declared and made, and nothing else.
- `tree_eq`: a group is read off with the groups in it, whatever their number and depth.
- `allRoutes_run`: the routes of the groups, of the whole tree, and their templates.
-/
import Mathlib.Data.List.Perm.Basic
import Mathlib.Tactic
import UriRouting.Group.Growth
import UriRouting.Proofs.Uri.Joining

namespace UriRouting

/-! ## Templates behind several bases -/

namespace Group

theorem place_join (base inner : Text) (template : Option Text) :
    place (Uri.join base inner) template = place base (place inner template) := by
  cases template with
  | some t => exact congrArg some (Uri.join_assoc base inner t)
  | none =>
    by_cases hinner : inner = []
    · rw [hinner, Uri.join_nil_right]
      rfl
    · have hjoined : Uri.join base inner ≠ [] := by
        by_cases hbase : base = []
        · rwa [hbase, Uri.join_nil_left]
        · exact Uri.join_ne_nil hbase hinner
      simp only [place, List.isEmpty_iff, if_neg hinner, if_neg hjoined]

/-- behind the bases of a path, joined -/
theorem place_foldr_join (path : List Text) (template : Option Text) :
    place (path.foldr Uri.join []) template = path.foldr place template := by
  induction path with
  | nil =>
    cases template with
    | none => rfl
    | some t => rfl
  | cons base path ih => rw [List.foldr_cons, place_join, ih, List.foldr_cons]

theorem foldr_place_some (path : List Text) (t : Text) : path.foldr place (some t) = some (path.foldr Uri.join t) := by
  induction path with
  | nil => rfl
  | cons base path ih => rw [List.foldr_cons, ih, place, List.foldr_cons]

end Group

namespace Forest

open scoped List

/-! ## What a history tells -/

/-- the bases on the way to each group, by its number; a call may lead to one more -/
def Call.extend (paths : List (List Text)) : Call → List (List Text)
  | .declare _ _ _ => paths
  | .nest n base => paths ++ [paths.getD n [] ++ [base]]

/-- what a call declares, and in which group -/
def Call.declaration? : Call → Option (Nat × Route)
  | .declare n via route => some (n, via.route route)
  | .nest _ _ => none

/-- the group in which a call makes another -/
def Call.maker? : Call → Option Nat
  | .declare _ _ _ => none
  | .nest n _ => some n

section History

variable (root : Text) (calls : List Call)

/-- the bases on the way to each group, from the root on -/
def paths : List (List Text) := calls.foldl Call.extend [[root]]

def pathTo (n : Nat) : List Text := (paths root calls).getD n []

/-- the declarations in order, each with its group -/
def declarations : List (Nat × Route) := calls.filterMap Call.declaration?

/-- for each group made, in order, the group it was made in -/
def makers : List Nat := calls.filterMap Call.maker?

/-- the groups made, each behind the group it was made in; the root is number 0 -/
def nestings : List (Nat × Nat) := (makers calls).zipIdx 1

def childrenOf (n : Nat) : List Nat := ((nestings calls).filter (·.1 = n)).map Prod.snd

/-- the routes declared in a group, in order and as they were given -/
def givenTo (n : Nat) : List Route := ((declarations calls).filter (·.1 = n)).map Prod.snd

/-- a route as it stands in a group: its template is behind the bases on the way there -/
def settled (path : List Text) (route : Route) : Route := { route with template := path.foldr Group.place route.template }

def declaredIn (n : Nat) : List Route := (givenTo calls n).map (settled (pathTo root calls n))

def declared : List Route := (declarations calls).map fun d => settled (pathTo root calls d.1) d.2

end History

/-- a forest that holds what a history tells -/
structure Recorded (root : Text) (calls : List Call) (f : Forest) : Prop where
  groups : f.nodes.length = (paths root calls).length
  made : (paths root calls).length = (makers calls).length + 1
  node : ∀ n path, (paths root calls)[n]? = some path →
    f.nodes[n]? = some (Node.mk (path.foldr Uri.join []) ((givenTo calls n).map (settled path)) (childrenOf calls n))
  known : ∀ d ∈ declarations calls, d.1 < (paths root calls).length
  nested : ∀ e ∈ nestings calls, e.1 < e.2

/-! ## What a call adds -/

section Added

variable (root : Text) (calls : List Call) (m : Nat) (via : Via) (route : Route) (base : Text) (n : Nat)

theorem paths_declare : paths root (calls ++ [.declare m via route]) = paths root calls := List.foldl_concat ..

theorem paths_nest : paths root (calls ++ [.nest m base]) = paths root calls ++ [pathTo root calls m ++ [base]] :=
  List.foldl_concat ..

theorem declarations_declare :
    declarations (calls ++ [.declare m via route]) = declarations calls ++ [(m, via.route route)] := List.filterMap_append

theorem declarations_nest : declarations (calls ++ [.nest m base]) = declarations calls := by
  rw [declarations, List.filterMap_append]
  exact List.append_nil _

theorem makers_declare : makers (calls ++ [.declare m via route]) = makers calls := by
  rw [makers, List.filterMap_append]
  exact List.append_nil _

theorem makers_nest : makers (calls ++ [.nest m base]) = makers calls ++ [m] := List.filterMap_append

theorem nestings_nest : nestings (calls ++ [.nest m base]) = nestings calls ++ [(m, (makers calls).length + 1)] := by
  rw [nestings, makers_nest, List.zipIdx_append, List.zipIdx_singleton, Nat.add_comm, nestings]

theorem givenTo_declare : givenTo (calls ++ [.declare m via route]) n =
    givenTo calls n ++ if m = n then [via.route route] else [] := by
  rw [givenTo, declarations_declare, List.filter_append, List.map_append, givenTo]
  by_cases h : m = n
  · simp [h]
  · simp [h]

theorem givenTo_nest : givenTo (calls ++ [.nest m base]) n = givenTo calls n := by
  rw [givenTo, declarations_nest, givenTo]

theorem childrenOf_declare : childrenOf (calls ++ [.declare m via route]) n = childrenOf calls n := by
  rw [childrenOf, nestings, makers_declare, childrenOf, nestings]

theorem childrenOf_nest : childrenOf (calls ++ [.nest m base]) n =
    childrenOf calls n ++ if m = n then [(makers calls).length + 1] else [] := by
  rw [childrenOf, nestings_nest, List.filter_append, List.map_append, childrenOf]
  by_cases h : m = n
  · simp [h]
  · simp [h]

end Added

variable {root : Text} {calls : List Call} {f : Forest}

theorem recorded_plant (root : Text) : Recorded root [] (empty.plant root) where
  groups := rfl
  made := rfl
  node := by
    intro n path hpath
    obtain ⟨hn, rfl⟩ := List.getElem?_eq_some_iff.1 hpath
    obtain rfl : n = 0 := Nat.lt_one_iff.1 hn
    have hroot : [root].foldr Uri.join [] = root := Uri.join_nil_right root
    exact congrArg (fun base => some (Node.mk base [] [])) hroot.symm
  known := by
    intro d hd
    exact absurd hd List.not_mem_nil
  nested := by
    intro e he
    exact absurd he List.not_mem_nil

/-! ## A call -/

/-- the base of a group is that of its path -/
theorem Recorded.baseOf (hf : Recorded root calls f) {n : Nat} {path : List Text}
    (hpath : (paths root calls)[n]? = some path) : f.baseOf n = path.foldr Uri.join [] := by
  rw [Forest.baseOf, hf.node n path hpath]
  rfl

/-- a route declared in a group settles there -/
theorem Recorded.placed (hf : Recorded root calls f) {n : Nat} {path : List Text}
    (hpath : (paths root calls)[n]? = some path) (route : Route) : f.placed n route = settled path route := by
  rw [Forest.placed, hf.baseOf hpath, Group.place_foldr_join, settled]

/-- nothing is declared in a group that is not there -/
theorem Recorded.givenTo_eq_nil (hf : Recorded root calls f) {n : Nat} (hn : f.nodes.length ≤ n) :
    givenTo calls n = [] := by
  rw [givenTo, List.map_eq_nil_iff, List.filter_eq_nil_iff]
  intro d hd hdn
  have hlt := hf.known d hd
  rw [of_decide_eq_true hdn, ← hf.groups] at hlt
  exact absurd hlt (Nat.not_lt.2 hn)

theorem Recorded.lt_of_mem_nestings (hf : Recorded root calls f) {e : Nat × Nat} (he : e ∈ nestings calls) :
    e.1 < f.nodes.length := by
  have hmade : e.2 < f.nodes.length := by
    rw [hf.groups, hf.made, Nat.add_comm]
    exact List.snd_lt_add_of_mem_zipIdx he
  exact Nat.lt_trans (hf.nested e he) hmade

/-- no group is made in a group that is not there -/
theorem Recorded.childrenOf_eq_nil (hf : Recorded root calls f) {n : Nat} (hn : f.nodes.length ≤ n) :
    childrenOf calls n = [] := by
  rw [childrenOf, List.map_eq_nil_iff, List.filter_eq_nil_iff]
  intro e he hen
  have hlt := hf.lt_of_mem_nestings he
  rw [of_decide_eq_true hen] at hlt
  exact absurd hlt (Nat.not_lt.2 hn)

theorem Recorded.getElem?_paths (hf : Recorded root calls f) {n : Nat} (hn : n < f.nodes.length) :
    (paths root calls)[n]? = some (pathTo root calls n) := by
  rw [hf.groups] at hn
  rw [pathTo, List.getD_eq_getElem?_getD, List.getElem?_eq_getElem hn, Option.getD_some]

theorem recorded_declare (hf : Recorded root calls f) {m : Nat} (hm : m < f.nodes.length) (via : Via) (route : Route) :
    Recorded root (calls ++ [.declare m via route]) (f.declare m (via.route route)) where
  groups := by
    rw [paths_declare, ← hf.groups]
    exact List.length_modify ..
  made := by rw [paths_declare, makers_declare, hf.made]
  node := by
    intro n path hpath
    rw [paths_declare] at hpath
    rw [declare, append, List.getElem?_modify, hf.node n path hpath, givenTo_declare, childrenOf_declare]
    by_cases h : m = n
    · subst h
      simp [hf.placed hpath]
    · simp [h]
  known := by
    rw [declarations_declare, paths_declare]
    intro d hd
    rcases List.mem_append.1 hd with hd | hd
    · exact hf.known d hd
    · rw [List.mem_singleton.1 hd, ← hf.groups]
      exact hm
  nested := by
    rw [nestings, makers_declare]
    exact hf.nested

theorem recorded_nest (hf : Recorded root calls f) {m : Nat} (hm : m < f.nodes.length) (base : Text) :
    Recorded root (calls ++ [.nest m base]) (f.nest m base) where
  groups := by
    rw [paths_nest, List.length_append, ← hf.groups, nest, attach, List.length_modify, plant, List.length_append]
    rfl
  made := by
    rw [paths_nest, makers_nest, List.length_append, List.length_append, hf.made]
    rfl
  node := by
    intro n path hpath
    rw [paths_nest] at hpath
    rw [nest, attach, List.getElem?_modify, plant, givenTo_nest, childrenOf_nest]
    rcases Nat.lt_or_ge n f.nodes.length with hn | hn
    · rw [List.getElem?_append_left (hf.groups ▸ hn)] at hpath
      rw [List.getElem?_append_left hn, hf.node n path hpath, ← hf.made, ← hf.groups]
      by_cases h : m = n
      · simp [h]
      · simp [h]
    · -- the group that is made: nothing was said about its number so far
      have hlast : n = f.nodes.length := by
        have hlt := (List.getElem?_eq_some_iff.1 hpath).1
        rw [List.length_append, List.length_singleton, ← hf.groups] at hlt
        exact Nat.le_antisymm (Nat.le_of_lt_succ hlt) hn
      have hmn : m ≠ n := fun h => absurd hm (Nat.not_lt.2 (h ▸ hn))
      obtain rfl : pathTo root calls m ++ [base] = path := by
        rw [hlast, hf.groups, List.getElem?_concat_length] at hpath
        exact Option.some.inj hpath
      rw [hlast, List.getElem?_concat_length, ← hlast, hf.givenTo_eq_nil hn, hf.childrenOf_eq_nil hn]
      simp [hmn, List.foldr_append, Uri.join_nil_right, hf.baseOf (hf.getElem?_paths hm), Uri.join_foldr]
  known := by
    rw [declarations_nest, paths_nest]
    intro d hd
    rw [List.length_append]
    exact Nat.lt_add_right _ (hf.known d hd)
  nested := by
    rw [nestings_nest]
    intro e he
    rcases List.mem_append.1 he with he | he
    · exact hf.nested e he
    · rw [List.mem_singleton.1 he, ← hf.made, ← hf.groups]
      exact hm

theorem recorded_step (hf : Recorded root calls f) (c : Call) (hc : c.group < f.nodes.length) :
    Recorded root (calls ++ [c]) (f.step c) := by
  cases c with
  | declare m via route => exact recorded_declare hf hc via route
  | nest m base => exact recorded_nest hf hc base

theorem recorded_run (hf : Recorded root calls f) (later : List Call) (hlater : f.Admits later) :
    Recorded root (calls ++ later) (f.run later) := by
  induction later generalizing calls f with
  | nil => rwa [List.append_nil]
  | cons c later ih =>
    rw [run_cons, List.append_cons]
    exact ih (recorded_step hf c hlater.1) hlater.2

/-! ## Reading a group off -/

/-- each group stands before the groups in it -/
def Ordered (f : Forest) : Prop :=
  ∀ (n : Nat) (node : Node), f.nodes[n]? = some node → ∀ child ∈ node.children, n < child

theorem treeTo_of_length_le {n : Nat} (hn : f.nodes.length ≤ n) (depth : Nat) : f.treeTo depth n = .mk [] [] [] := by
  cases depth with
  | zero => rfl
  | succ depth => rw [treeTo, List.getElem?_eq_none hn]

/-- as many levels as there are groups from this one on are enough -/
theorem treeTo_eq (hf : Ordered f) {n depth deeper : Nat} (hdepth : f.nodes.length - n ≤ depth)
    (hdeeper : f.nodes.length - n ≤ deeper) : f.treeTo depth n = f.treeTo deeper n := by
  induction depth generalizing n deeper with
  | zero =>
    have hn : f.nodes.length ≤ n := Nat.sub_eq_zero_iff_le.1 (Nat.le_zero.1 hdepth)
    rw [treeTo_of_length_le hn, treeTo_of_length_le hn]
  | succ depth ih =>
    cases deeper with
    | zero =>
      have hn : f.nodes.length ≤ n := Nat.sub_eq_zero_iff_le.1 (Nat.le_zero.1 hdeeper)
      rw [treeTo_of_length_le hn, treeTo_of_length_le hn]
    | succ deeper =>
      rw [treeTo, treeTo]
      cases hnode : f.nodes[n]? with
      | none => rfl
      | some node =>
        have hchildren : node.children.map (f.treeTo depth) = node.children.map (f.treeTo deeper) := by
          apply List.map_congr_left
          intro child hchild
          have hlt := hf n node hnode child hchild
          exact ih (by omega) (by omega)
        simp only [hchildren]

/-- **A group is read off whole**: its routes, and each of the groups in it -/
theorem tree_eq (hf : Ordered f) {n : Nat} {node : Node} (hnode : f.nodes[n]? = some node) :
    f.tree n = .mk node.base node.routes (node.children.map f.tree) := by
  obtain ⟨hn, -⟩ := List.getElem?_eq_some_iff.1 hnode
  have hsome : f.nodes.length ≠ 0 := Nat.ne_of_gt (Nat.zero_lt_of_lt hn)
  obtain ⟨depth, hdepth⟩ := Nat.exists_eq_succ_of_ne_zero hsome
  have hchildren : node.children.map (f.treeTo depth) = node.children.map f.tree := by
    apply List.map_congr_left
    intro child hchild
    have hlt := hf n node hnode child hchild
    exact treeTo_eq hf (by omega) (by omega)
  rw [tree, hdepth, treeTo, hnode]
  simp only [hchildren]

theorem Recorded.ordered (hf : Recorded root calls f) : Ordered f := by
  intro n node hnode child hchild
  obtain ⟨hn, -⟩ := List.getElem?_eq_some_iff.1 hnode
  rw [hf.node n _ (hf.getElem?_paths hn)] at hnode
  obtain rfl := Option.some.inj hnode
  obtain ⟨e, he, rfl⟩ := List.mem_map.1 hchild
  obtain ⟨hin, hen⟩ := List.mem_filter.1 he
  exact of_decide_eq_true hen ▸ hf.nested e hin

theorem Recorded.allRoutes_tree (hf : Recorded root calls f) (n : Nat) : (f.tree n).allRoutes =
    declaredIn root calls n ++ (childrenOf calls n).flatMap fun m => (f.tree m).allRoutes := by
  rcases Nat.lt_or_ge n f.nodes.length with hn | hn
  · rw [tree_eq hf.ordered (hf.node n _ (hf.getElem?_paths hn)), Group.allRoutes, Group.allRoutesOf_eq_flatMap,
      List.flatMap_map, declaredIn]
  · rw [tree, treeTo_of_length_le hn, declaredIn, hf.givenTo_eq_nil hn, hf.childrenOf_eq_nil hn]
    rfl

/-! ## The whole tree -/

/-- items sorted into numbered heaps are still the same items -/
theorem perm_flatMap_filter {α : Type} (key : α → Nat) {count : Nat} {items : List α} (h : ∀ x ∈ items, key x < count) :
    ((List.range count).flatMap fun n => items.filter (key · = n)) ~ items := by
  induction count generalizing items with
  | zero =>
    have hnil : items = [] := List.eq_nil_iff_forall_not_mem.2 fun x hx => absurd (h x hx) (Nat.not_lt_zero _)
    rw [hnil, List.range_zero, List.flatMap_nil]
  | succ count ih =>
    have hlower : ∀ x ∈ items.filter (fun x => !decide (key x = count)), key x < count := by
      intro x hx
      obtain ⟨hin, hne⟩ := List.mem_filter.1 hx
      exact Nat.lt_of_le_of_ne (Nat.le_of_lt_succ (h x hin)) (by simpa using hne)
    have hheaps : ((List.range count).flatMap fun n => items.filter (key · = n)) =
        (List.range count).flatMap fun n => (items.filter (fun x => !decide (key x = count))).filter (key · = n) := by
      apply List.flatMap_congr
      intro n hn
      rw [List.filter_filter]
      apply List.filter_congr
      intro x _
      have hne : n ≠ count := Nat.ne_of_lt (List.mem_range.1 hn)
      by_cases hx : key x = n
      · simp [hx, hne]
      · simp [hx]
    calc (List.range (count + 1)).flatMap (fun n => items.filter (key · = n))
        = ((List.range count).flatMap fun n => (items.filter (fun x => !decide (key x = count))).filter (key · = n)) ++
            items.filter (key · = count) := by
          rw [List.range_succ, List.flatMap_append, List.flatMap_singleton, hheaps]
      _ ~ items.filter (fun x => !decide (key x = count)) ++ items.filter (key · = count) := (ih hlower).append_right _
      _ ~ items.filter (key · = count) ++ items.filter (fun x => !decide (key x = count)) := List.perm_append_comm
      _ ~ items := List.filter_append_perm (key · = count) items

/-- the routes declared in the groups, group by group, are those declared in the tree -/
theorem Recorded.perm_declared (hf : Recorded root calls f) :
    ((List.range f.nodes.length).flatMap (declaredIn root calls)) ~ declared root calls := by
  have hheaps : (List.range f.nodes.length).flatMap (declaredIn root calls) =
      ((List.range f.nodes.length).flatMap fun n => (declarations calls).filter (·.1 = n)).map
        fun d => settled (pathTo root calls d.1) d.2 := by
    rw [List.map_flatMap]
    apply List.flatMap_congr
    intro n _
    rw [declaredIn, givenTo, List.map_map]
    apply List.map_congr_left
    intro d hd
    rw [of_decide_eq_true (List.mem_filter.1 hd).2]
    rfl
  rw [hheaps]
  exact (perm_flatMap_filter Prod.fst fun d hd => hf.groups ▸ hf.known d hd).map _

/-- the groups made in the groups, group by group, are all but the root -/
theorem Recorded.perm_children (hf : Recorded root calls f) :
    ((List.range f.nodes.length).flatMap (childrenOf calls)) ~ List.range' 1 (makers calls).length := by
  have hheaps : (List.range f.nodes.length).flatMap (childrenOf calls) =
      ((List.range f.nodes.length).flatMap fun n => (nestings calls).filter (·.1 = n)).map Prod.snd := by
    rw [List.map_flatMap]
    rfl
  rw [hheaps, ← List.zipIdx_map_snd 1 (makers calls)]
  exact (perm_flatMap_filter Prod.fst fun e he => hf.lt_of_mem_nestings he).map _

/-- **Each declared route is listed once**: what the groups list, less what the groups in them list, is what is declared -/
theorem Recorded.perm_allRoutes (hf : Recorded root calls f) : (f.tree 0).allRoutes ~ declared root calls := by
  let listed : Nat → List Route := fun n => (f.tree n).allRoutes
  let inner := (List.range' 1 (makers calls).length).flatMap listed
  have hgroups : List.range f.nodes.length = 0 :: List.range' 1 (makers calls).length := by
    rw [hf.groups, hf.made, List.range_eq_range', List.range'_succ]
  have hall : listed 0 ++ inner ~ declared root calls ++ inner := by
    calc listed 0 ++ inner
        = (List.range f.nodes.length).flatMap listed := by rw [hgroups, List.flatMap_cons]
      _ = (List.range f.nodes.length).flatMap fun n => declaredIn root calls n ++ (childrenOf calls n).flatMap listed :=
          List.flatMap_congr fun n _ => hf.allRoutes_tree n
      _ ~ (List.range f.nodes.length).flatMap (declaredIn root calls) ++
            (List.range f.nodes.length).flatMap fun n => (childrenOf calls n).flatMap listed :=
          (List.flatMap_append_perm _ _ _).symm
      _ = (List.range f.nodes.length).flatMap (declaredIn root calls) ++
            ((List.range f.nodes.length).flatMap (childrenOf calls)).flatMap listed := by rw [List.flatMap_assoc]
      _ ~ declared root calls ++ inner := hf.perm_declared.append (hf.perm_children.flatMap_right listed)
  exact (List.perm_append_right_iff inner).1 hall

/-! ## Every history -/

/-- what a tree of groups lists, told by its history -/
structure Lists (root : Text) (calls : List Call) (f : Forest) : Prop where
  /-- the routes declared in a group in order, then what each group made in it lists, in order -/
  listing : ∀ n, (f.tree n).allRoutes =
    declaredIn root calls n ++ (childrenOf calls n).flatMap fun m => (f.tree m).allRoutes
  /-- the root lists every declared route once -/
  once : (f.tree 0).allRoutes ~ declared root calls
  /-- a declared template stands behind all the bases on the way to its group -/
  template : ∀ n route t, (n, route) ∈ declarations calls → route.template = some t →
    { route with template := some ((pathTo root calls n).foldr Uri.join t) } ∈ (f.tree 0).allRoutes
  /-- in whatever way those are put together -/
  bracketed : ∀ n (b : Uri.Bracketing), b.pieces = pathTo root calls n →
    ∀ t, Uri.join b.joined t = (pathTo root calls n).foldr Uri.join t

/-- **The routes of a tree of groups, whatever its history**: each declared route once, a group's own before those of the
groups in it, behind all the bases on its way; and the laws of joining that make it so -/
theorem allRoutes_run {root : Text} {calls : List Call} (h : (empty.plant root).Admits calls) :
    Lists root calls ((empty.plant root).run calls) ∧
    (∀ p q r, Uri.join (Uri.join p q) r = Uri.join p (Uri.join q r)) ∧
    ∀ t, Uri.join [] t = t ∧ Uri.join t [] = t := by
  have hf : Recorded root calls ((empty.plant root).run calls) := recorded_run (recorded_plant root) calls h
  refine ⟨⟨hf.allRoutes_tree, hf.perm_allRoutes, ?_, ?_⟩, Uri.join_assoc, ?_⟩
  · intro n route t hdeclared htemplate
    have hsettled : settled (pathTo root calls n) route =
        { route with template := some ((pathTo root calls n).foldr Uri.join t) } := by
      rw [settled, htemplate, Group.foldr_place_some]
    rw [← hsettled, hf.perm_allRoutes.mem_iff]
    exact List.mem_map_of_mem hdeclared
  · intro n b hpieces t
    rw [Uri.join_joined, hpieces]
  · intro t
    exact ⟨Uri.join_nil_left t, Uri.join_nil_right t⟩

/-- calls on three groups in turn, with bases that are empty, one slash, and slashes at the end -/
theorem allRoutes_run_interleaved :
    let route : Nat → Text → Route := fun serial t => ⟨serial, none, some t, .function [], none⟩
    let calls : List Call := [.nest 0 ['/'], .declare 0 .get (route 0 "/a".toList), .nest 1 [],
      .declare 2 .any (route 1 ['b']), .nest 0 "c//".toList, .declare 3 .delete (route 2 "//d".toList),
      .declare 1 .post (route 3 []), .declare 0 .patch (route 4 [])]
    let f := (empty.plant "/api/".toList).run calls
    (empty.plant "/api/".toList).Admits calls ∧ Lists "/api/".toList calls f ∧
      (f.tree 0).allRoutes.map (fun s => (s.serial, s.method, s.template)) =
        [(0, some "GET".toList, some "/api/a".toList), (4, some "PATCH".toList, some "/api/".toList),
          (3, some "POST".toList, some "/api/".toList), (1, some "ALL".toList, some "/api/b".toList),
          (2, some "DELETE".toList, some "/api/c/d".toList)] := by
  intro route calls f
  have hadmits : (empty.plant "/api/".toList).Admits calls := by decide +kernel
  exact ⟨hadmits, (allRoutes_run hadmits).1, by decide +kernel⟩

end Forest

end UriRouting
