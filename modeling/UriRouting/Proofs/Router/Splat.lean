/-
Splats under every mount point. A splat is a placeholder that takes any text without a newline, slashes included. A route
of plain text and a splat behind it is found again under its own URI with the very value it was rendered from, wherever the
router is mounted and however the value starts and ends. One thing stands in the way: behind a context path the URI has one
slash, so the text and the value must not start with two.

- `parameters?_splat`: the splat takes the whole rest of the path, the last slash included.
- `strip_outer_join`: what a lookup takes off is what the renderer put in front, but for a second slash.
- `find_uriFor_splat`: the round trip.
- `splat_slashes_merged`: the value that starts with a slash behind a slash.
-/
import UriRouting.Proofs.Template.Placeholder
import UriRouting.Proofs.Pattern.Prefixed
import UriRouting.Proofs.Router.RoundTrip

namespace UriRouting.Router

open Template Results

/-! ## The splat -/

def splat : Text := ".*".toList

def splatTemplate (l n : Text) : Text := l ++ (Token.parameter n (some splat)).print

theorem isConstraint_splat : IsConstraint splat := ⟨by decide, by decide, by decide⟩

theorem slot?_splat : slot? (some splat) = some ⟨0, .any false⟩ := by decide +kernel

variable {l n v : Text}

theorem tokenize_splat (hl : Regex.IsLiteral l) (hne : l ≠ []) (hn : IsName n) :
    tokenize (splatTemplate l n) = .ok [.literal l, .parameter n (some splat)] := by
  rw [splatTemplate, tokenize_constrained hn isConstraint_splat hl, flush_of_ne_nil hne]

/-- a text that passes is taken whole first -/
theorem takes_whole {test : Char → Bool} (h : ∀ c ∈ v, test c = true) : ∃ more, takes test 0 v = (v, []) :: more := by
  induction v with
  | nil => exact ⟨[], rfl⟩
  | cons c v ih =>
    obtain ⟨hc, hv⟩ := List.forall_mem_cons.1 h
    obtain ⟨more, hmore⟩ := ih hv
    exact ⟨_, by rw [takes, past, if_pos hc, hmore, List.map_cons]; rfl⟩

/-- the first reading of the text and a value gives the splat the value -/
theorem readings_splat (hv : '\n' ∉ v) :
    ∃ more, readings [.literal l, .parameter n (some splat)] (l ++ v) = ([v], []) :: more := by
  have haccepts : ∀ c ∈ v, Regex.CharTest.accepts false (.any false) c = true := by
    intro c hc
    have hne : c ≠ '\n' := fun h => hv (h ▸ hc)
    simpa [Regex.CharTest.accepts] using hne
  obtain ⟨more, hmore⟩ := takes_whole haccepts
  have hprefix : l.isPrefixOf (l ++ v) = true := List.isPrefixOf_iff_prefix.2 (List.prefix_append l v)
  rw [readings, if_pos hprefix, List.drop_left, readings]
  simp only [slot?_splat, hmore, List.flatMap_cons, readings, List.map_cons, List.map_nil, List.cons_append]
  exact ⟨_, rfl⟩

/-- **A splat takes all of the rest**, slashes and all, whatever the settings -/
theorem parameters?_splat {config : Config} (hl : Regex.IsLiteral l) (hne : l ≠ []) (hn : IsName n) {p : Pattern}
    (hp : Pattern.compile config (splatTemplate l n) = .ok p) (hv : '\n' ∉ v) :
    p.parameters? (l ++ v) = .ok (some [(n, v)]) := by
  have htokens := tokenize_splat hl hne hn
  let standard : Config := { config with bareConstraint := Config.standard.bareConstraint }
  have hstandard : Pattern.compile standard (splatTemplate l n) = .ok p := by
    rw [← hp]
    apply Pattern.compile_congr
    · rfl
    · intro tokens h name constraint hmem
      obtain rfl := Except.ok.inj (htokens.symm.trans h)
      cases constraint with
      | none => simp at hmem
      | some k => rfl
  have hsimple : ∀ t ∈ [Token.literal l, .parameter n (some splat)], t.IsSimple := by
    intro t ht
    rcases List.mem_cons.1 ht with rfl | ht
    · exact hl
    · obtain rfl := List.mem_singleton.1 ht
      rw [Token.IsSimple, slot?_splat]
      rfl
  obtain ⟨more, hmore⟩ := readings_splat (l := l) (n := n) hv
  have hbare : standard.bareConstraint = Config.standard.bareConstraint := rfl
  rw [Pattern.parameters?_eq hbare htokens hsimple hstandard, hmore, List.find?_cons_of_pos rfl]
  rfl

/-! ## Rendering and mounting -/

/-- a URI that does not start with two slashes is found under its own path; without a context path any is -/
theorem strip_outer_join (r : Router) {uri : Text} (hslash : uri.head? = some '/')
    (hseam : r.mount = [] ∨ ¬['/', '/'] <+: uri) : r.strip (r.outer uri) = uri := by
  obtain ⟨rest, rfl⟩ := List.head?_eq_some_iff.1 hslash
  rcases hseam with hmount | hseam
  · rw [outer, strip, hmount, Uri.join, if_pos rfl]
    rfl
  · refine strip_outer r rfl ?_
    intro hrest
    obtain ⟨more, rfl⟩ := List.head?_eq_some_iff.1 hrest
    exact hseam ⟨more, rfl⟩

/-- one literal and one placeholder: the value behind the text -/
theorem render_splat {value : Value} (hpresent : value ≠ .absent) :
    Uri.render [.literal l, .parameter n (some splat)] [(n, value)] = .ok (l ++ value.inUri) := by
  have hlookup : List.lookup n [(n, value)] = some value := by simp
  have hleft : Uri.without [(n, value)] n = [] := by simp [Uri.without]
  rw [Uri.render, Uri.fill, Uri.fill_parameter hlookup hpresent, hleft]
  simp [Uri.fill, Except.map, Uri.query]

variable {r : Router} {route : Route}

/-- **The URI of a splat** is the context path, the text and the value -/
theorem Indexed.uriFor_splat (hr : Indexed r) (hroute : route ∈ r.routes) (hl : Regex.IsLiteral l) (hne : l ≠ [])
    (hn : IsName n) (htemplate : route.template = some (splatTemplate l n)) {p : Pattern}
    (hp : Pattern.compile r.config (splatTemplate l n) = .ok p) {target : Text} (htarget : Targets r route target)
    {value : Value} (hpresent : value ≠ .absent) :
    r.uriFor target [(n, value)] = .ok (r.outer (l ++ value.inUri)) := by
  have htokens : p.tokens = [.literal l, .parameter n (some splat)] := by
    obtain ⟨tokens, source, program, htokens, -, -, rfl⟩ := Pattern.compile_eq_ok_iff.1 hp
    exact (Except.ok.inj ((tokenize_splat hl hne hn).symm.trans htokens)).symm
  have htargetNe : target.isEmpty = false := by
    rcases htarget with ⟨-, h⟩ | ⟨htext, -⟩
    · simpa using h
    · obtain rfl := Option.some.inj (htext.symm.trans htemplate)
      simp [splatTemplate, hne]
  have hrender := render_splat (l := l) (n := n) hpresent
  simp only [uriFor, htargetNe, hr.templateOf_eq hroute htemplate htarget, hp, htokens, hrender, Bool.false_eq_true, if_false]

/-! ## The round trip -/

/-- a route that is tried, and matches, is found, unless another route that is tried fails -/
theorem Indexed.found_of_attempt (hr : Indexed r) {path method : Text} {own : Match}
    (htried : route ∈ r.routesFor (some method)) (hown : attempt r.config (r.strip path) route = .ok (some own)) :
    (∃ s ∈ r.routesFor (some method), s ≠ route ∧ ∃ e, attempt r.config (r.strip path) s = .error e) ∨
      ∃ found, (r.find path method).answer = .ok found ∧ own ∈ found := by
  rcases hr.fails_or_found path method with ⟨s, hs, e, he⟩ | ⟨found, hfound, hanswer⟩
  · refine .inl ⟨s, hs, ?_, e, he⟩
    rintro rfl
    simp [hown] at he
  · obtain ⟨m, hm, hattempt⟩ := exists_mem_of_mapM hfound htried
    obtain rfl := Except.ok.inj (hown.symm.trans hattempt)
    exact .inr ⟨_, hanswer, List.mem_filterMap.2 ⟨some own, hm, rfl⟩⟩

/-- **A splat is found again under its own URI**, with the value it was rendered from, at every mount point -/
theorem find_uriFor_splat (hr : Reachable r) (hroute : route ∈ r.routes) (hl : Regex.IsLiteral l)
    (hslash : l.head? = some '/') (hn : IsName n) (htemplate : route.template = some (splatTemplate l n))
    {method : Text} (hmethod : route.method = some method) {target : Text} (htarget : Targets r route target)
    {value : Value} (hpresent : value ≠ .absent) (hline : '\n' ∉ value.inUri)
    (hseam : r.mount = [] ∨ ¬['/', '/'] <+: l ++ value.inUri) :
    ∃ uri, r.uriFor target [(n, value)] = .ok uri ∧
      ((∃ s ∈ r.routesFor (some method), s ≠ route ∧ ∃ e, attempt r.config (r.strip uri) s = .error e) ∨
        ∃ found, (r.find uri method).answer = .ok found ∧ ⟨route, [(n, value.inUri)]⟩ ∈ found) := by
  have hi := hr.indexed
  have hne : l ≠ [] := by
    rintro rfl
    simp at hslash
  obtain ⟨hknown, p, hp⟩ := hi.compile_of_mem hroute htemplate hmethod
  refine ⟨_, hi.uriFor_splat hroute hl hne hn htemplate hp htarget hpresent, ?_⟩
  have htried : route ∈ r.routesFor (some method) := by
    rw [hi.routesFor, if_pos hknown]
    exact List.mem_filter.2 ⟨hroute, by simp [Route.isVisible, hmethod]⟩
  apply hi.found_of_attempt htried
  have hstart : (l ++ value.inUri).head? = some '/' := by
    rw [List.head?_append_of_ne_nil _ hne, hslash]
  rw [strip_outer_join r hstart hseam]
  simp only [attempt, htemplate, Option.getD_some, hp, parameters?_splat hl hne hn hp hline]
  rfl

/-- a value between slashes, behind a context path, with the tolerated slash at the end -/
theorem find_uriFor_splat_mounted :
    let route : Route := ⟨0, some Method.get, some (splatTemplate "/files".toList ['x']), .function [], none⟩
    let r := run (.empty { Config.standard with contextPath := "/app/".toList }) [.add route]
    ∃ uri, r.uriFor (splatTemplate "/files".toList ['x']) [(['x'], .text "//a//".toList)] = .ok uri ∧
      ((∃ s ∈ r.routesFor (some Method.get), s ≠ route ∧ ∃ e, attempt r.config (r.strip uri) s = .error e) ∨
        ∃ found, (r.find uri Method.get).answer = .ok found ∧ ⟨route, [(['x'], "//a//".toList)]⟩ ∈ found) := by
  intro route r
  have hroutes : r.routes = [route] := routes_step_add (by decide +kernel)
  have hroute : route ∈ r.routes := hroutes ▸ List.mem_singleton_self route
  have htarget : Targets r route (splatTemplate "/files".toList ['x']) := by
    refine .inr ⟨rfl, ?_⟩
    intro s hs
    rw [hroutes, List.mem_singleton] at hs
    rw [hs]
    exact nofun
  have hseam : ¬['/', '/'] <+: "/files".toList ++ Value.inUri (.text "//a//".toList) := by decide
  exact find_uriFor_splat ⟨_, _, rfl⟩ hroute (by decide) rfl (by decide +kernel) rfl rfl htarget nofun (by decide) (.inr hseam)

/-- where a splat is not found again with its value: behind a context path, a slash at the end of the text and one at the
start of the value become one -/
theorem splat_slashes_merged :
    let route : Route := ⟨0, some Method.get, some (splatTemplate ['/'] ['x']), .function [], none⟩
    let r := run (.empty { Config.standard with contextPath := "/app".toList }) [.add route]
    (Reachable r ∧ route ∈ r.routes ∧ Targets r route (splatTemplate ['/'] ['x'])) ∧
    r.uriFor (splatTemplate ['/'] ['x']) [(['x'], .text "/a".toList)] = .ok "/app/a".toList ∧
    (r.find "/app/a".toList Method.get).answer = .ok [⟨route, [(['x'], ['a'])]⟩] := by
  intro route r
  have hreachable : Reachable r := ⟨_, _, rfl⟩
  have hroutes : r.routes = [route] := routes_step_add (by decide +kernel)
  have hconfig : r.config = { Config.standard with contextPath := "/app".toList } := config_run _ _
  have htarget : Targets r route (splatTemplate ['/'] ['x']) := by
    refine .inr ⟨rfl, ?_⟩
    intro s hs
    rw [hroutes, List.mem_singleton] at hs
    rw [hs]
    exact nofun
  have hattempt : attempt r.config "/a".toList route = .ok (some ⟨route, [(['x'], ['a'])]⟩) := by
    obtain ⟨-, p, hp⟩ := hreachable.indexed.compile_of_mem (hroutes ▸ List.mem_singleton_self route) rfl rfl
    have hparameters : p.parameters? ("/".toList ++ ['a']) = .ok (some [(['x'], ['a'])]) :=
      parameters?_splat (by decide) (by decide) (by decide +kernel) hp (by decide)
    have htemplate : route.template.getD [] = splatTemplate ['/'] ['x'] := rfl
    rw [attempt, htemplate, hp]
    exact congrArg (Except.map _) hparameters
  have hfind : (r.find "/app/a".toList Method.get).answer = .ok [⟨route, [(['x'], ['a'])]⟩] := by
    have hvisible : r.routesFor (some Method.get) = [route] := by
      rw [hreachable.indexed.routesFor, if_pos (by decide), hroutes]
      rfl
    have hstrip : r.strip "/app/a".toList = "/a".toList := by
      rw [Router.strip, Router.mount, hconfig]
      decide
    rw [hreachable.indexed.reflects.found, hvisible, hstrip, mapM_cons_ok hattempt]
    rfl
  exact ⟨⟨hreachable, hroutes ▸ List.mem_singleton_self route, htarget⟩, by decide +kernel, hfind⟩

end UriRouting.Router
