/-
What registering, removing and looking up do to the table of a router. A table has three parts that say the same thing in
three ways; `Indexed` says that they agree, that every entry holds its route compiled, and that no proper name is borne
twice. It holds of an empty router, every change keeps it, and so every reachable router has it (`Reachable.indexed`).

The other results are what the parts of a change come to, one lemma for each:
- `clash?_eq_none_iff`, `clash?_eq_some_iff`: the first name that is taken, or borne by an earlier entry;
- `candidates_build`, `names_build`: what an index answers, read off the entries.
-/
import Mathlib.Tactic
import UriRouting.Router.History
import UriRouting.Proofs.Results

namespace UriRouting.Router

open Results

/-! ## Entries and names -/

/-- what an entry holds: its route, and the pattern of a proper template, for a known method -/
theorem entryOf_ok {config : Config} {route : Route} {e : Entry} (h : entryOf config route = .ok e) :
    e.route = route ∧ ∃ template method, route.template = some template ∧ template ≠ [] ∧ route.method = some method ∧
      method ∈ Method.known ∧ Pattern.compile config template = .ok e.pattern := by
  unfold entryOf at h
  split at h
  · simp at h
  · simp at h
  · rename_i template hne htemplate
    split at h
    · simp at h
    · rename_i method hmethod
      split at h
      · rename_i hknown
        obtain ⟨p, hp, rfl⟩ := map_eq_ok_iff.1 h
        exact ⟨rfl, template, method, htemplate, hne, hmethod, hknown, hp⟩
      · simp at h

/-- the name of the entry is taken: it is in use, or an earlier entry bears it -/
def Taken (inUse : List Text) (before : List Entry) (e : Entry) (name : Text) : Prop :=
  e.route.name = some name ∧ (name ∈ inUse ∨ ∃ f ∈ before, f.route.name = some name)

theorem clash?_cons_of_name {inUse : List Text} {e : Entry} {name : Text} (h : e.route.name = some name)
    (rest : List Entry) : clash? inUse (e :: rest) = if name ∈ inUse then some name else clash? (name :: inUse) rest := by
  rw [clash?, h]

theorem clash?_cons_of_unnamed {inUse : List Text} {e : Entry} (h : e.route.name = none) (rest : List Entry) :
    clash? inUse (e :: rest) = clash? inUse rest := by
  rw [clash?, h]

/-- a name counts as in use behind the entry that bears it -/
theorem taken_cons {inUse : List Text} {before : List Entry} {e f : Entry} {name : Text} :
    Taken inUse (f :: before) e name ↔ Taken (f.route.name.toList ++ inUse) before e name := by
  simp only [Taken, List.mem_cons, List.mem_append, Option.mem_toList, exists_eq_or_imp]
  tauto

theorem clash?_cons_append {inUse : List Text} {e : Entry} {rest : List Entry} (h : ∀ name, ¬Taken inUse [] e name) :
    clash? inUse (e :: rest) = clash? (e.route.name.toList ++ inUse) rest := by
  cases hn : e.route.name with
  | none => rw [clash?_cons_of_unnamed hn]; rfl
  | some name =>
    rw [clash?_cons_of_name hn, if_neg fun hm => h name ⟨hn, .inl hm⟩]
    rfl

/-- **The first name that is taken is the clash** -/
theorem clash?_eq_some_iff {inUse : List Text} {entries : List Entry} {name : Text} :
    clash? inUse entries = some name ↔ ∃ before e after, entries = before ++ e :: after ∧
      clash? inUse before = none ∧ Taken inUse before e name := by
  induction entries generalizing inUse with
  | nil => simp [clash?]
  | cons f entries ih =>
    by_cases hf : ∃ taken, Taken inUse [] f taken
    · obtain ⟨taken, hname, hmem | ⟨g, hg, -⟩⟩ := hf
      · rw [clash?_cons_of_name hname, if_pos hmem]
        refine ⟨?_, ?_⟩
        · intro h
          obtain rfl := Option.some.inj h
          exact ⟨[], f, entries, rfl, rfl, hname, .inl hmem⟩
        · intro hclash
          obtain ⟨before, e, after, he, hbefore, htaken⟩ := hclash
          cases before with
          | nil =>
            obtain ⟨rfl, rfl⟩ := List.cons.inj he
            rw [← hname, htaken.1]
          | cons g before =>
            obtain ⟨rfl, rfl⟩ := List.cons.inj he
            rw [clash?_cons_of_name hname, if_pos hmem] at hbefore
            simp at hbefore
      · simp at hg
    · have hf' : ∀ taken, ¬Taken inUse [] f taken := fun taken h => hf ⟨taken, h⟩
      rw [clash?_cons_append hf', ih]
      refine ⟨?_, ?_⟩
      · intro hclash
        obtain ⟨before, e, after, rfl, hbefore, htaken⟩ := hclash
        exact ⟨f :: before, e, after, rfl, by rw [clash?_cons_append hf', hbefore], taken_cons.2 htaken⟩
      · intro hclash
        obtain ⟨before, e, after, he, hbefore, htaken⟩ := hclash
        cases before with
        | nil =>
          obtain ⟨rfl, rfl⟩ := List.cons.inj he
          exact absurd htaken (hf' name)
        | cons g before =>
          obtain ⟨rfl, rfl⟩ := List.cons.inj he
          rw [clash?_cons_append hf'] at hbefore
          exact ⟨before, e, after, rfl, hbefore, taken_cons.1 htaken⟩

theorem clash?_eq_none_iff {inUse : List Text} {entries : List Entry} : clash? inUse entries = none ↔
    ∀ before e after name, entries = before ++ e :: after → ¬Taken inUse before e name := by
  induction entries generalizing inUse with
  | nil => simp [clash?]
  | cons f entries ih =>
    by_cases hf : ∃ taken, Taken inUse [] f taken
    · obtain ⟨taken, htaken⟩ := hf
      have hsome : clash? inUse (f :: entries) = some taken :=
        clash?_eq_some_iff.2 ⟨[], f, entries, rfl, rfl, htaken⟩
      rw [hsome]
      refine ⟨?_, ?_⟩
      · simp
      · intro h
        exact absurd htaken (h [] f entries taken rfl)
    · have hf' : ∀ taken, ¬Taken inUse [] f taken := fun taken h => hf ⟨taken, h⟩
      rw [clash?_cons_append hf', ih]
      refine ⟨?_, ?_⟩
      · intro h before e after name he htaken
        cases before with
        | nil =>
          obtain ⟨rfl, rfl⟩ := List.cons.inj he
          exact hf' name htaken
        | cons g before =>
          obtain ⟨rfl, rfl⟩ := List.cons.inj he
          exact h before e after name rfl (taken_cons.1 htaken)
      · intro h before e after name he htaken
        exact h (f :: before) e after name (by rw [he]; rfl) (taken_cons.2 htaken)

/-! ## Indexes -/

theorem lookup_map_known {α : Type} (f : Text → α) (ms : List Text) (m : Text) :
    (ms.map fun m => (m, f m)).lookup m = if m ∈ ms then some (f m) else none := by
  induction ms with
  | nil => rfl
  | cons n ms ih =>
    rw [List.map_cons, List.lookup_cons, ih]
    by_cases h : m = n
    · subst h
      simp
    · have hn : (m == n) = false := beq_eq_false_iff_ne.2 h
      simp [hn, h]

/-- **What a lookup for a method considers**: the entries it may see, in order, when the method is known -/
theorem candidates_build (entries : List Entry) (method : Text) :
    (Table.build entries).candidates method =
      if method ∈ Method.known then entries.filter (·.route.isVisible method) else [] := by
  rw [Table.candidates, Table.build, lookup_map_known]
  split <;> rfl

theorem properName?_eq_some {route : Route} {name : Text} :
    route.properName? = some name ↔ route.name = some name ∧ name ≠ [] := by
  rw [Route.properName?, Option.filter_eq_some_iff]
  simp

def properNames (entries : List Entry) : List Text := entries.filterMap (·.route.properName?)

theorem mem_properNames {entries : List Entry} {name : Text} :
    name ∈ properNames entries ↔ name ≠ [] ∧ ∃ e ∈ entries, e.route.name = some name := by
  simp only [properNames, List.mem_filterMap, properName?_eq_some]
  refine ⟨?_, ?_⟩
  · intro h
    obtain ⟨e, he, hn, hne⟩ := h
    exact ⟨hne, e, he, hn⟩
  · intro h
    obtain ⟨hne, e, he, hn⟩ := h
    exact ⟨e, he, hn, hne⟩

/-- the name by which the index knows an entry -/
theorem named?_eq (e : Entry) : Table.named? e = e.route.properName?.map (·, e.route) := rfl

/-- **The names in use are the proper names of the entries**, the latest first -/
theorem names_build (entries : List Entry) : (Table.build entries).names = (properNames entries).reverse := by
  rw [Table.names, Table.build, List.map_reverse, List.map_filterMap, properNames]
  congr 1
  apply List.filterMap_congr
  intro e _
  rw [named?_eq, Option.map_map]
  exact Option.map_id'

theorem mem_names_build {entries : List Entry} {name : Text} :
    name ∈ (Table.build entries).names ↔ name ≠ [] ∧ ∃ e ∈ entries, e.route.name = some name := by
  rw [names_build, List.mem_reverse, mem_properNames]

/-! ## The invariant -/

/-- the indexes are those of the entries, every entry holds its route compiled, and no proper name is borne twice -/
structure Indexed (r : Router) : Prop where
  built : r.table = .build r.table.entries
  compiled : ∀ e ∈ r.table.entries, entryOf r.config e.route = .ok e
  named : (properNames r.table.entries).Nodup

theorem indexed_empty (config : Config) : Indexed (.empty config) := by
  refine ⟨?_, ?_, ?_⟩
  · rfl
  · intro e he
    exact absurd he List.not_mem_nil
  · exact List.nodup_nil

/-- what a successful registration does -/
theorem register_ok {r s : Router} {routes : List Route} (h : r.register routes = .ok s) :
    ∃ entries, routes.mapM (entryOf r.config) = .ok entries ∧ clash? r.table.names entries = none ∧
      s = { r with table := .build (r.table.entries ++ entries) } := by
  unfold register at h
  split at h
  · simp at h
  · rename_i entries hentries
    split at h
    · simp at h
    · rename_i hclash
      exact ⟨entries, hentries, hclash, (Except.ok.inj h).symm⟩

/-- without a clash all proper names stay different -/
theorem nodup_properNames_append {old new : List Entry} (hold : (properNames old).Nodup)
    (hclash : clash? (Table.build old).names new = none) : (properNames (old ++ new)).Nodup := by
  induction new using List.reverseRecOn with
  | nil => rwa [List.append_nil]
  | append_singleton new e ih =>
    have hnone := clash?_eq_none_iff.1 hclash
    have hprefix : clash? (Table.build old).names new = none := by
      refine clash?_eq_none_iff.2 fun before f after name hsplit => hnone before f (after ++ [e]) name ?_
      rw [hsplit, List.append_assoc, List.cons_append]
    rw [← List.append_assoc, properNames, List.filterMap_append, List.nodup_append]
    refine ⟨ih hprefix, ?_, ?_⟩
    · cases he : e.route.properName? <;> simp [he]
    · rintro name hname other hother rfl
      obtain ⟨f, hf, hproper⟩ := List.mem_filterMap.1 hother
      obtain rfl := List.mem_singleton.1 hf
      obtain ⟨hn, hne⟩ := properName?_eq_some.1 hproper
      obtain ⟨-, g, hg, hgn⟩ := mem_properNames.1 hname
      refine hnone new f [] name (by simp) ⟨hn, ?_⟩
      rcases List.mem_append.1 hg with hg | hg
      · exact .inl (mem_names_build.2 ⟨hne, g, hg, hgn⟩)
      · exact .inr ⟨g, hg, hgn⟩

theorem indexed_register {r s : Router} {routes : List Route} (hr : Indexed r) (h : r.register routes = .ok s) :
    Indexed s := by
  obtain ⟨entries, hentries, hclash, rfl⟩ := register_ok h
  refine ⟨?_, ?_, ?_⟩
  · rfl
  · intro e he
    rcases List.mem_append.1 he with he | he
    · exact hr.compiled e he
    · obtain ⟨route, -, hroute⟩ := exists_of_mem_mapM hentries he
      rw [(entryOf_ok hroute).1]
      exact hroute
  · rw [hr.built] at hclash
    exact nodup_properNames_append hr.named hclash

/-- what registering a batch leaves behind: the router as it was, or with the batch registered -/
theorem addAll_cases (r : Router) (routes : List Route) :
    (∃ s, r.register routes = .ok s ∧ r.addAll routes = ⟨.ok routes, s, routes.map .added⟩) ∨
    ∃ e, r.register routes = .error e ∧ r.addAll routes = ⟨.error e, r, []⟩ := by
  unfold addAll
  cases h : r.register routes with
  | ok s => exact .inl ⟨s, rfl, rfl⟩
  | error e => exact .inr ⟨e, rfl, rfl⟩

theorem indexed_addAll {r : Router} (hr : Indexed r) (routes : List Route) : Indexed (r.addAll routes).router := by
  rcases addAll_cases r routes with ⟨s, hs, h⟩ | ⟨e, -, h⟩
  · rw [h]
    exact indexed_register hr hs
  · rw [h]
    exact hr

theorem indexed_remove {r : Router} (hr : Indexed r) (route : Route) : Indexed (r.remove route).router := by
  unfold remove
  split
  · refine ⟨?_, ?_, ?_⟩
    · rfl
    · intro e he
      exact hr.compiled e (List.mem_of_mem_filter he)
    · exact hr.named.sublist (List.filter_sublist.filterMap _)
  · exact hr

/-- **Every change keeps the indexes in step** -/
theorem indexed_step {r : Router} (hr : Indexed r) (c : Change) : Indexed (r.step c) := by
  cases c with
  | add route => exact indexed_addAll hr [route]
  | addGroup group => exact indexed_addAll hr group.allRoutes
  | remove route => exact indexed_remove hr route

theorem indexed_run {r : Router} (hr : Indexed r) (cs : List Change) : Indexed (r.run cs) := by
  induction cs generalizing r with
  | nil => exact hr
  | cons c cs ih => exact ih (indexed_step hr c)

theorem Reachable.indexed {r : Router} (h : Reachable r) : Indexed r := by
  obtain ⟨config, cs, rfl⟩ := h
  exact indexed_run (indexed_empty config) cs

end UriRouting.Router
