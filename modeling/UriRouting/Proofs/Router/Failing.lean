/-
When finding routes fails. A lookup tries the candidates in turn, and it answers a list, which is empty where none of them
matches, unless a candidate matches whose parameters cannot be read off.

- `find_error_iff`: the failure, told exactly.
- `find_ok_of_simple`: it does not happen where all templates are simple.
- `find_placeholder_in_set`: it does happen, with a route that was registered like any other.
-/
import UriRouting.Proofs.Pattern.Failing
import UriRouting.Proofs.Router.Survivors

namespace UriRouting.Router

open Results

/-- the entry matches the path, and its match cannot be read off -/
def Fails (path : Text) (c : Entry) : Prop :=
  (c.pattern.program.fullMatch path).isSome = true ∧ ¬c.pattern.HasGroups

theorem matching_error_iff {path : Text} {entries : List Entry} {e : Error} :
    matching path entries = .error e ↔ e = .missingGroup ∧ ∃ c ∈ entries, Fails path c := by
  induction entries with
  | nil => simp [matching]
  | cons c entries ih =>
    have hc : ∀ f, c.pattern.parameters? path = .error f ↔ f = .missingGroup ∧ Fails path c :=
      fun f => Pattern.parameters?_error_iff
    rw [matching]
    simp only [List.exists_mem_cons_iff]
    cases hp : c.pattern.parameters? path with
    | error f =>
      obtain ⟨rfl, hfails⟩ := (hc f).1 hp
      simp [hfails, eq_comm]
    | ok found =>
      have hnot : ¬Fails path c := by
        intro hfails
        have := (hc .missingGroup).2 ⟨rfl, hfails⟩
        simp [hp] at this
      cases found with
      | none => simp only [ih, hnot, false_or]
      | some parameters => simp only [map_eq_error_iff, ih, hnot, false_or]

/-- **Finding routes fails only for a candidate that matches without its groups**; else it answers a list -/
theorem find_error_iff (r : Router) (path method : Text) (e : Error) : (r.find path method).answer = .error e ↔
    e = .missingGroup ∧ ∃ c ∈ r.table.candidates method, Fails (r.strip path) c := matching_error_iff

/-- **With simple templates only, finding routes never fails** -/
theorem find_ok_of_simple {r : Router} (hr : Reachable r)
    (hbare : r.config.bareConstraint = Config.standard.bareConstraint)
    (hsimple : ∀ route ∈ r.routes, ∀ template, route.template = some template →
      ∃ tokens, Template.tokenize template = .ok tokens ∧ ∀ t ∈ tokens, t.IsSimple)
    (path method : Text) : ∃ found, (r.find path method).answer = .ok found := by
  cases hanswer : (r.find path method).answer with
  | ok found => exact ⟨found, rfl⟩
  | error e =>
    obtain ⟨-, c, hc, -, hgroups⟩ := matching_error_iff.1 hanswer
    have hmem : c ∈ r.table.entries := by
      rw [hr.indexed.candidates] at hc
      split at hc
      · exact List.mem_of_mem_filter hc
      · exact absurd hc List.not_mem_nil
    obtain ⟨-, template, -, htemplate, -, -, -, hp⟩ := entryOf_ok (hr.indexed.compiled c hmem)
    obtain ⟨tokens, htokens, hall⟩ := hsimple c.route (List.mem_map_of_mem hmem) template htemplate
    exact absurd (Pattern.hasGroups_of_simple hbare htokens hall hp) hgroups

theorem attempt_eq_answer {config : Config} {route : Route} {template : Text} (h : route.template = some template)
    (path : Text) :
    attempt config path route = (Pattern.answer config template path).map (Option.map (Match.mk route)) := by
  simp only [attempt, h, Option.getD_some, Pattern.answer]
  cases Pattern.compile config template <;> rfl

/-- a placeholder in a set: the template compiles and its route is registered, but a match cannot be told -/
theorem find_placeholder_in_set :
    let template := "/[\x7bid: a\x7d]".toList
    let r := run (.empty .standard) [.add ⟨0, some Method.get, some template, .function [], none⟩]
    Reachable r ∧ (Pattern.compile .standard template).isOk = true ∧
      Pattern.answer .standard template "/b".toList = .ok none ∧
      Pattern.answer .standard template "/a".toList = .error .missingGroup ∧
      (r.find "/a".toList Method.get).answer = .error .missingGroup := by
  intro template r
  have hcompiled : (Pattern.compile .standard template).isOk = true := by decide +kernel
  have hmiss : Pattern.answer .standard template "/b".toList = .ok none := by
    rw [Pattern.answer_eq_find?]
    decide +kernel
  have hhit : Pattern.answer .standard template "/a".toList = .error .missingGroup := by
    rw [Pattern.answer_eq_find?]
    decide +kernel
  have hreachable : Reachable r := ⟨_, _, rfl⟩
  have hconfig : r.config = .standard := config_run _ _
  have hfind : (r.find "/a".toList Method.get).answer = .error .missingGroup := by
    have hroutes : r.routes = [⟨0, some Method.get, some template, .function [], none⟩] :=
      routes_step_add (by decide +kernel)
    have hstrip : r.strip "/a".toList = "/a".toList := by
      rw [Router.strip, Router.mount, hconfig]
      rfl
    rw [hreachable.indexed.reflects.found, hreachable.indexed.routesFor, if_pos (by decide), hroutes, hstrip, hconfig]
    exact congrArg (Except.map List.reduceOption)
      (mapM_cons_error ((attempt_eq_answer rfl _).trans (by rw [hhit]; rfl)) [])
  exact ⟨hreachable, hcompiled, hmiss, hhit, hfind⟩

end UriRouting.Router
