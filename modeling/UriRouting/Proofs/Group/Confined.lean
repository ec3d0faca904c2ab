/-
Routes under a group's base. The base is joined to a template as text, before either is read as an expression. Where the
base is plain text and the template is one sequence on its own, the joined template is the base and then that sequence. A
template with notation that the reader does not take up does not compile on its own, so nothing is said of it here: one that
calls the whole expression again, `/a(?R)?b`, would call the base with it.

Results:
- `template_placed`: the template of a declared route is the base with the relative template behind it.
- `placed_confined`: it matches no path outside the base; and where the relative template does not look at what stands
  before it, it matches the base followed by what that matches on its own, with the same parameters.
- `prefix_of_mem_found`: so a lookup finds a declared route only for paths under the base.

Necessary, each with a template that compiles on its own and joined:
- `placed_unconfined`: a template of two branches, or one that closes the group around it, matches outside the base; a
  template that looks back, to the start of the path or to a character before it, sees the base there.
-/
import Mathlib.Data.List.ReduceOption
import UriRouting.Group.Forest
import UriRouting.Proofs.Pattern.Prefixed
import UriRouting.Proofs.Router.RoundTrip
import UriRouting.Proofs.Uri.Joining

namespace UriRouting.Forest

open Regex Results

/-- plain text that starts with a slash and does not end with one -/
structure IsPlainBase (base : Text) : Prop where
  literal : IsLiteral base
  start : base.head? = some '/'
  stop : base.getLast? ≠ some '/'

theorem IsPlainBase.ne_nil {base : Text} (h : IsPlainBase base) : base ≠ [] := by
  intro hnil
  have hstart := h.start
  simp [hnil] at hstart

variable {f : Forest} {n : ℕ} {route : Route} {rest : Text} {own : Pattern}

/-- a template that starts with one slash stands behind the base as it is -/
theorem template_placed (hbase : IsPlainBase (f.baseOf n)) (htemplate : route.template = some ('/' :: rest))
    (hrest : rest.head? ≠ some '/') : (f.placed n route).template = some (f.baseOf n ++ '/' :: rest) := by
  rw [placed, htemplate, Group.place, Uri.join_slash hbase.ne_nil hrest, Uri.dropTrailing_of_getLast? hbase.stop]

/-- **A base confines the routes declared under it**: a template of one sequence matches nothing outside the base, and one
that stays within its own text matches what it does on its own, behind the base -/
theorem placed_confined (hbase : IsPlainBase (f.baseOf n)) (htemplate : route.template = some ('/' :: rest))
    (hrest : rest.head? ≠ some '/') (hown : Pattern.compile .standard ('/' :: rest) = .ok own)
    (hsequence : own.IsSequence) : ∃ template joined,
      (f.placed n route).template = some template ∧ Pattern.compile .standard template = .ok joined ∧
      (∀ path, ¬f.baseOf n <+: path → joined.parameters? path = .ok none) ∧
      (own.StaysWithin → ∀ path parameters, joined.parameters? path = .ok (some parameters) ↔
        ∃ v, path = f.baseOf n ++ v ∧ own.parameters? v = .ok (some parameters)) := by
  obtain ⟨joined, hjoined, houtside, hwithin⟩ := Pattern.parameters?_append hbase.literal hbase.start hown hsequence
  refine ⟨_, joined, template_placed hbase htemplate hrest, hjoined, houtside, ?_⟩
  intro hstays path parameters
  refine ⟨?_, ?_⟩
  · intro hmatch
    by_cases hpath : f.baseOf n <+: path
    · obtain ⟨v, rfl⟩ := hpath
      exact ⟨v, rfl, by rw [← hwithin hstays, hmatch]⟩
    · rw [houtside path hpath] at hmatch
      simp at hmatch
  · rintro ⟨v, rfl, hmatch⟩
    rw [hwithin hstays, hmatch]

/-- a placeholder, an optional group of two branches and a word boundary, under a base -/
theorem placed_confined_page : ∃ own template joined,
    let f := Forest.empty.plant "/api".toList
    let rest := "\x7bid: [0-9]+\x7d(?:\\.(?:json|xml))?\\b".toList
    let route : Route := ⟨0, some Method.get, some ('/' :: rest), .function [], none⟩
    IsPlainBase (f.baseOf 0) ∧ rest.head? ≠ some '/' ∧ Pattern.compile .standard ('/' :: rest) = .ok own ∧
      own.IsSequence ∧ own.StaysWithin ∧ (f.placed 0 route).template = some template ∧
      Pattern.compile .standard template = .ok joined ∧
      (∀ path, ¬f.baseOf 0 <+: path → joined.parameters? path = .ok none) ∧
      (∀ path parameters, joined.parameters? path = .ok (some parameters) ↔
        ∃ v, path = f.baseOf 0 ++ v ∧ own.parameters? v = .ok (some parameters)) := by
  let f := Forest.empty.plant "/api".toList
  let rest := "\x7bid: [0-9]+\x7d(?:\\.(?:json|xml))?\\b".toList
  let route : Route := ⟨0, some Method.get, some ('/' :: rest), .function [], none⟩
  have hcompiled : (Pattern.compile .standard ('/' :: rest)).map
      (fun own => decide (own.IsSequence ∧ own.StaysWithin)) = .ok true := by decide +kernel
  obtain ⟨own, hown, hboth⟩ := map_eq_ok_iff.1 hcompiled
  obtain ⟨hsequence, hstays⟩ := of_decide_eq_true hboth
  have hbase : IsPlainBase (f.baseOf 0) := ⟨by decide, rfl, by decide⟩
  have hrest : rest.head? ≠ some '/' := by decide
  have htemplate : route.template = some ('/' :: rest) := rfl
  obtain ⟨template, joined, hplaced, hjoined, houtside, hwithin⟩ :=
    placed_confined hbase htemplate hrest hown hsequence
  exact ⟨own, template, joined, hbase, hrest, hown, hsequence, hstays, hplaced, hjoined, houtside, hwithin hstays⟩

/-- the template of a route that the first group of a forest, with the base, declares with a template -/
def under (base template : Text) : Text :=
  ((Forest.empty.plant base).placed 0 ⟨0, some Method.get, some template, .function [], none⟩).template.getD []

/-- templates that a base does not confine, and templates that it keeps from matching behind it: each answer for a path is
beside the one that the template gives on its own -/
theorem placed_unconfined :
    (Pattern.answer .standard "/a|/b".toList "/b".toList = .ok (some []) ∧
        Pattern.answer .standard (under "/api".toList "/a|/b".toList) "/b".toList = .ok (some []) ∧
        Pattern.answer .standard (under "/api".toList "/a|/b".toList) "/api/b".toList = .ok none) ∧
      (Pattern.answer .standard "/a)*(b".toList "b".toList = .ok (some []) ∧
        Pattern.answer .standard (under "/api".toList "/a)*(b".toList) "b".toList = .ok (some []) ∧
        Pattern.answer .standard (under "/api".toList "/a)*(b".toList) "/apib".toList = .ok none) ∧
      (Pattern.answer .standard "/?^x".toList "x".toList = .ok (some []) ∧
        Pattern.answer .standard (under "/api".toList "/?^x".toList) "/apix".toList = .ok none) ∧
      (Pattern.answer .standard "/(?<!i/)x".toList "/x".toList = .ok (some []) ∧
        Pattern.answer .standard (under "/api".toList "/(?<!i/)x".toList) "/api/x".toList = .ok none) := by
  refine ⟨⟨?_, ?_, ?_⟩, ⟨?_, ?_, ?_⟩, ⟨?_, ?_⟩, ?_, ?_⟩
  all_goals
    rw [Pattern.answer_eq_find?]
    decide +kernel

/-- **A lookup finds a declared route only under its base** -/
theorem prefix_of_mem_found (hbase : IsPlainBase (f.baseOf n)) (htemplate : route.template = some ('/' :: rest))
    (hrest : rest.head? ≠ some '/') (hown : Pattern.compile .standard ('/' :: rest) = .ok own)
    (hsequence : own.IsSequence) {r : Router} (hr : Router.Reachable r) (hconfig : r.config = .standard)
    {path method : Text} {found : List Router.Match} (hfound : (r.find path method).answer = .ok found) {m : Router.Match}
    (hm : m ∈ found) (hroute : m.route = f.placed n route) : f.baseOf n <+: path := by
  obtain ⟨joined, hjoined, houtside, -⟩ := Pattern.parameters?_append hbase.literal hbase.start hown hsequence
  have hstrip : r.strip path = path := by
    rw [Router.strip, Router.mount, hconfig]
    rfl
  rw [hr.indexed.reflects.found, hstrip, hconfig] at hfound
  obtain ⟨answers, hanswers, rfl⟩ := map_eq_ok_iff.1 hfound
  obtain ⟨tried, -, hattempt⟩ := exists_of_mem_mapM hanswers (List.reduceOption_mem_iff.1 hm)
  obtain rfl : f.placed n route = tried := hroute.symm.trans (Router.route_of_attempt hattempt)
  by_contra hpath
  -- the route itself answers that it does not match
  rw [Router.attempt, template_placed hbase htemplate hrest, Option.getD_some, hjoined] at hattempt
  simp [houtside path hpath, Except.map] at hattempt

end UriRouting.Forest
