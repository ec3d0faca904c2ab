/-
Rendering and matching undo each other. The URI of a route whose template is plain text and bare placeholders, a slash
behind each of them but perhaps the last, is matched by that route with the values it was rendered from.

- `fill_tokens`: the renderer puts the values in their places and leaves no parameter over.
- `strip_outer`: a lookup takes off what the renderer puts in front.
- `parameters?_fill`: the filled template is matched with its values.
- `Indexed.found_once`: a route that is tried once, and matches, is found once.
- `find_uriFor`: the round trip, where no other route's pattern fails on the path.
- `round_trip_refused`: what it does not reach.
-/
import UriRouting.Proofs.Pattern.Parameters
import UriRouting.Proofs.Template.Outline
import UriRouting.Proofs.Router.Failing
import UriRouting.Proofs.Uri.Joining
import UriRouting.Proofs.Uri.Rendering

namespace UriRouting.Router

open Template Results

/-! ## Rendering -/

theorem fill_flush (parameters : Uri.Parameters) (t : Text) (tokens : List Token) :
    Uri.fill parameters (flush t tokens) = (Uri.fill parameters tokens).map fun x => (t ++ x.1, x.2) := by
  cases t with
  | nil =>
    rw [show flush [] tokens = tokens from rfl]
    cases Uri.fill parameters tokens <;> rfl
  | cons c t => rw [flush_of_ne_nil (List.cons_ne_nil c t), Uri.fill]

/-- **The renderer puts each value in the place of its name**, whatever their order, and has none left -/
theorem fill_partTokens {parts : List (Text × Text)} (hdistinct : (parts.map Prod.fst).Nodup) {values : List Value}
    (hlength : values.length = parts.length) (hpresent : ∀ v ∈ values, v ≠ .absent) {parameters : Uri.Parameters}
    (hparameters : parameters.Perm ((parts.map Prod.fst).zip values)) :
    Uri.fill parameters (Outline.partTokens parts) = .ok (Outline.fillParts parts (values.map Value.inUri), []) := by
  induction parts generalizing values parameters with
  | nil =>
    obtain rfl : parameters = [] := by simpa using hparameters
    rfl
  | cons part parts ih =>
    cases values with
    | nil => simp at hlength
    | cons v values =>
      obtain ⟨hnew, hdistinct⟩ := List.nodup_cons.1 hdistinct
      obtain ⟨hv, hpresent⟩ := List.forall_mem_cons.1 hpresent
      have hkeys : (parameters.map Prod.fst).Nodup := by
        have hfst : (((part :: parts).map Prod.fst).zip (v :: values)).map Prod.fst = (part :: parts).map Prod.fst :=
          List.map_fst_zip (by simpa using hlength.ge)
        rw [(hparameters.map Prod.fst).nodup_iff, hfst]
        exact List.nodup_cons.2 ⟨hnew, hdistinct⟩
      have hlookup : parameters.lookup part.1 = some v :=
        (lookup_eq_some_of_nodup hkeys).2 (hparameters.mem_iff.2 List.mem_cons_self)
      have hrest : (parameters.filter fun p => p.1 ≠ part.1).Perm ((parts.map Prod.fst).zip values) := by
        refine (hparameters.filter _).trans ?_
        rw [List.map_cons, List.zip_cons_cons, List.filter_cons_of_neg (by simp), List.filter_eq_self.2]
        intro p hp
        have := (List.of_mem_zip hp).1
        have hne : p.1 ≠ part.1 := fun h => hnew (h ▸ this)
        simpa using hne
      have hmore := ih hdistinct (by simpa using hlength) hpresent hrest
      rw [Outline.partTokens_cons, Uri.fill_parameter hlookup hv, Uri.without, fill_flush, hmore]
      simp [Except.map, Outline.fillParts]

theorem fill_tokens {o : Outline} (hdistinct : o.names.Nodup) {values : List Value}
    (hlength : values.length = o.parts.length) (hpresent : ∀ v ∈ values, v ≠ .absent) {parameters : Uri.Parameters}
    (hparameters : parameters.Perm (o.names.zip values)) :
    Uri.fill parameters o.tokens = .ok (o.fill (values.map Value.inUri), []) := by
  rw [Outline.tokens, fill_flush, fill_partTokens hdistinct hlength hpresent hparameters]
  rfl

/-! ## Mounting -/

/-- a URI that starts with one slash is put behind the context path as it stands -/
theorem outer_eq (r : Router) {uri rest : Text} (huri : uri = '/' :: rest) (h : rest.head? ≠ some '/') :
    r.outer uri = r.mount ++ uri := by
  subst huri
  by_cases hmount : r.mount = []
  · rw [outer, hmount, Uri.join, if_pos rfl, List.nil_append]
  · rw [outer, Uri.join_slash hmount h, mount, Uri.dropTrailing_dropTrailing]

/-- **A lookup takes off what a rendered URI has in front** -/
theorem strip_outer (r : Router) {uri rest : Text} (huri : uri = '/' :: rest) (h : rest.head? ≠ some '/') :
    r.strip (r.outer uri) = uri := by
  rw [outer_eq r huri h]
  unfold strip
  by_cases hmount : r.mount = []
  · simp [hmount]
  · have hlonger : r.mount ++ uri ≠ r.mount := by simp [huri]
    have hafter : Text.after? (r.mount ++ ['/']) (r.mount ++ uri) = some rest := by
      have := Text.after?_append (r.mount ++ ['/']) rest
      rwa [List.append_assoc, List.cons_append, List.nil_append, ← huri] at this
    rw [if_neg (by simpa using hmount), if_neg hlonger, if_pos (by rw [hafter]; rfl), List.drop_left]

/-! ## Matching -/

theorem find?_eq_some_of_unique {α : Type} {test : α → Bool} {l : List α} {x : α} (hx : x ∈ l) (htest : test x = true)
    (hunique : ∀ y ∈ l, test y = true → y = x) : l.find? test = some x := by
  cases hfind : l.find? test with
  | none => exact absurd htest (List.find?_eq_none.1 hfind x hx)
  | some y => rw [hunique y (List.mem_of_find?_eq_some hfind) (List.find?_some hfind)]

/-- **A filled template is matched with its values** -/
theorem parameters?_fill {config : Config} (hbare : config.bareConstraint = Config.standard.bareConstraint)
    {o : Outline} (ho : o.IsSegmented) {p : Pattern} (hp : Pattern.compile config o.text = .ok p) {values : List Text}
    (hlength : values.length = o.parts.length) (hfits : ∀ v ∈ values, Outline.Fits v) :
    p.parameters? (o.fill values) = .ok (some (o.names.zip values)) := by
  have hfirst : ((readings o.tokens (o.fill values)).find? fun r => Pattern.ends config.trailingSlash r.2) =
      some (values, []) := by
    refine find?_eq_some_of_unique ?_ rfl ?_
    · exact mem_readings.2 ⟨_, Outline.writes_fill hlength hfits, (List.append_nil _).symm⟩
    · rintro ⟨others, rest⟩ hr hends
      obtain ⟨path, hwrites, hpath⟩ := mem_readings.1 hr
      have hrest : rest = [] ∨ rest = ['/'] := by
        simp only [Pattern.ends, Bool.or_eq_true, List.isEmpty_iff, Bool.and_eq_true, beq_iff_eq] at hends
        exact hends.imp id And.right
      obtain ⟨rfl, rfl⟩ := Outline.unique_fill ho hlength hfits hrest hpath hwrites
      rfl
  rw [Pattern.parameters?_eq hbare (Outline.tokenize_text ho) (Outline.isSimple_of_mem_tokens ho) hp, hfirst,
    Outline.names_tokens]
  rfl

/-- a match is one of the route that was tried -/
theorem route_of_attempt {config : Config} {path : Text} {route : Route} {m : Match}
    (h : attempt config path route = .ok (some m)) : m.route = route := by
  unfold attempt at h
  split at h
  · simp at h
  · obtain ⟨found, -, hm⟩ := map_eq_ok_iff.1 h
    obtain ⟨parameters, -, rfl⟩ := Option.map_eq_some_iff.1 hm
    rfl

/-- the matches that belong to some of the routes tried are what those routes match themselves -/
theorem filter_reduceOption {config : Config} {path : Text} {routes : List Route} {found : List (Option Match)}
    (h : routes.mapM (attempt config path) = .ok found) (test : Route → Bool) :
    ∃ own, (routes.filter test).mapM (attempt config path) = .ok own ∧
      found.reduceOption.filter (fun m => test m.route) = own.reduceOption := by
  have hrel := mapM_ok_iff.1 h
  clear h
  induction hrel with
  | nil => exact ⟨[], rfl, rfl⟩
  | @cons route o routes found hroute _ ih =>
    obtain ⟨own, hown, hfilter⟩ := ih
    have hsplit : ∀ ms : List (Option Match), (o :: ms).reduceOption = o.toList ++ ms.reduceOption := by
      intro ms
      cases o <;> rfl
    by_cases htest : test route = true
    · refine ⟨o :: own, ?_, ?_⟩
      · rw [List.filter_cons_of_pos htest, mapM_cons_ok hroute, hown]
        rfl
      · rw [hsplit, hsplit, List.filter_append, hfilter]
        cases o with
        | none => rfl
        | some m => simp [route_of_attempt hroute, htest]
    · refine ⟨own, ?_, ?_⟩
      · rw [List.filter_cons_of_neg htest, hown]
      · rw [hsplit, List.filter_append, hfilter]
        cases o with
        | none => rfl
        | some m => simp [route_of_attempt hroute, htest]

/-- a lookup meets a route whose pattern fails on the path, or answers what the routes tried make of it -/
theorem Indexed.fails_or_found {r : Router} (hr : Indexed r) (path method : Text) :
    (∃ s ∈ r.routesFor (some method), ∃ e, attempt r.config (r.strip path) s = .error e) ∨
      ∃ found, (r.routesFor (some method)).mapM (attempt r.config (r.strip path)) = .ok found ∧
        (r.find path method).answer = .ok found.reduceOption := by
  rw [hr.reflects.found]
  cases hfound : (r.routesFor (some method)).mapM (attempt r.config (r.strip path)) with
  | error e =>
    obtain ⟨before, s, after, hsplit, -, he⟩ := mapM_error_iff.1 hfound
    exact .inl ⟨s, hsplit ▸ List.mem_append_right before List.mem_cons_self, e, he⟩
  | ok found => exact .inr ⟨found, rfl, rfl⟩

/-- **A route that is tried once, and matches, is found once**, unless another route that is tried fails -/
theorem Indexed.found_once {r : Router} (hr : Indexed r) {uri path method : Text} {route : Route} {own : Match}
    (hstrip : r.strip uri = path) (hown : attempt r.config path route = .ok (some own))
    (htried : (r.routesFor (some method)).filter (·.isSame route) = [route]) :
    (∃ s ∈ r.routesFor (some method), s.isSame route = false ∧ ∃ e, attempt r.config (r.strip uri) s = .error e) ∨
      ∃ found, (r.find uri method).answer = .ok found ∧ found.filter (·.route.isSame route) = [own] := by
  rcases hr.fails_or_found uri method with ⟨s, hs, e, he⟩ | ⟨found, hfound, hanswer⟩
  · refine .inl ⟨s, hs, ?_, e, he⟩
    apply Bool.eq_false_iff.2
    intro hsame
    have hmem : s ∈ (r.routesFor (some method)).filter (·.isSame route) := List.mem_filter.2 ⟨hs, hsame⟩
    rw [htried, List.mem_singleton] at hmem
    rw [hmem, hstrip, hown] at he
    cases he
  · obtain ⟨matched, hmatched, hfilter⟩ := filter_reduceOption hfound (·.isSame route)
    refine .inr ⟨found.reduceOption, hanswer, ?_⟩
    rw [hstrip, htried, mapM_cons_ok hown] at hmatched
    obtain rfl := Except.ok.inj hmatched
    exact hfilter

/-! ## The round trip -/

variable {r : Router} {route : Route} {o : Outline}

/-- a registered route has a known method, and its template compiles -/
theorem Indexed.compile_of_mem (hr : Indexed r) (hroute : route ∈ r.routes) {template method : Text}
    (htemplate : route.template = some template) (hmethod : route.method = some method) :
    method ∈ Method.known ∧ ∃ p, Pattern.compile r.config template = .ok p := by
  obtain ⟨e, he, rfl⟩ := List.mem_map.1 hroute
  obtain ⟨-, template', method', htemplate', -, hmethod', hknown, hp⟩ := entryOf_ok (hr.compiled e he)
  obtain rfl := Option.some.inj (htemplate.symm.trans htemplate')
  obtain rfl := Option.some.inj (hmethod.symm.trans hmethod')
  exact ⟨hknown, e.pattern, hp⟩

/-- the target is the proper name of the route, or its template, when that is nobody's name -/
def Targets (r : Router) (route : Route) (target : Text) : Prop :=
  (route.name = some target ∧ target ≠ []) ∨
    (route.template = some target ∧ ∀ s ∈ r.routes, s.name ≠ some target)

theorem Indexed.templateOf_eq (hr : Indexed r) (hroute : route ∈ r.routes) {target template : Text}
    (htemplate : route.template = some template) (htarget : Targets r route target) :
    r.templateOf target = template := by
  rcases htarget with ⟨hname, hne⟩ | ⟨htarget, hnobody⟩
  · have hfound : r.table.route? target = some route := hr.route?_eq_some.2 ⟨hroute, hname, hne⟩
    rw [templateOf, hfound, Option.bind_some, htemplate, Option.getD_some]
  · have hnone : r.table.route? target = none := by
      cases hfound : r.table.route? target with
      | none => rfl
      | some s =>
        obtain ⟨hs, hname, -⟩ := hr.route?_eq_some.1 hfound
        exact absurd hname (hnobody s hs)
    rw [templateOf, hnone]
    exact Option.some.inj (htarget.symm.trans htemplate)

/-- **The URI of a segmented template** is the context path and the template with the values in their places -/
theorem Indexed.uriFor_eq (hr : Indexed r) (hbare : r.config.bareConstraint = Config.standard.bareConstraint)
    (hroute : route ∈ r.routes) (ho : o.IsSegmented) (htemplate : route.template = some o.text) {p : Pattern}
    (hp : Pattern.compile r.config o.text = .ok p) {target : Text} (htarget : Targets r route target)
    {values : List Value} (hlength : values.length = o.parts.length) (hpresent : ∀ v ∈ values, v ≠ .absent) {parameters : Uri.Parameters}
    (hparameters : parameters.Perm (o.names.zip values)) :
    r.uriFor target parameters = .ok (r.outer (o.fill (values.map Value.inUri))) := by
  obtain ⟨-, -, htokens⟩ := Pattern.program_of_compile hbare (Outline.tokenize_text ho)
    (Outline.isSimple_of_mem_tokens ho) hp
  have hne : target ≠ [] := by
    rcases htarget with ⟨-, hne⟩ | ⟨htext, -⟩
    · exact hne
    · obtain ⟨rest, hfirst, -⟩ := ho.start
      obtain rfl := Option.some.inj (htext.symm.trans htemplate)
      simp [Outline.text, hfirst]
  have hrender : Uri.render p.tokens parameters = .ok (o.fill (values.map Value.inUri)) := by
    rw [Uri.render, htokens, fill_tokens ho.distinct hlength hpresent hparameters]
    exact congrArg Except.ok (List.append_nil _)
  have hempty : target.isEmpty = false := by simpa using hne
  simp only [uriFor, hempty, hr.templateOf_eq hroute htemplate htarget, hp, hrender, Bool.false_eq_true, if_false]

/-- a filled template starts with one slash -/
theorem fill_start (ho : o.IsSegmented) {values : List Text} (hlength : values.length = o.parts.length)
    (hfits : ∀ v ∈ values, Outline.Fits v) : ∃ rest, o.fill values = '/' :: rest ∧ rest.head? ≠ some '/' := by
  obtain ⟨first, hfirst, hhead⟩ := ho.start
  refine ⟨first ++ Outline.fillParts o.parts values, by rw [← List.cons_append, ← hfirst]; rfl, ?_⟩
  cases first with
  | cons c first => exact hhead
  | nil =>
    cases hparts : o.parts with
    | nil => simp [Outline.fillParts]
    | cons part parts =>
      cases values with
      | nil => simp [hparts] at hlength
      | cons v values =>
        obtain ⟨hne, hslash⟩ := hfits v List.mem_cons_self
        cases v with
        | nil => exact absurd rfl hne
        | cons c v =>
          intro hc
          have : c = '/' := by simpa [Outline.fillParts] using hc
          exact hslash (this ▸ List.mem_cons_self)

/-- **Reverse routing is undone by matching.** The URI for a route's name, or for its template, is found again: of that
route there is one match, with the values it was rendered from. This holds as long as no other route for the method has a
pattern that fails on the path. -/
theorem find_uriFor (hr : Reachable r) (hbare : r.config.bareConstraint = Config.standard.bareConstraint)
    (honce : r.routes.filter (·.isSame route) = [route]) (ho : o.IsSegmented) (htemplate : route.template = some o.text)
    {method : Text} (hmethod : route.method = some method) {target : Text} (htarget : Targets r route target)
    {values : List Value} (hlength : values.length = o.names.length)
    (hvalues : ∀ v ∈ values, v ≠ .absent ∧ v.inUri ≠ [] ∧ '/' ∉ v.inUri) {parameters : Uri.Parameters}
    (hparameters : parameters.Perm (o.names.zip values)) :
    ∃ uri, r.uriFor target parameters = .ok uri ∧
      ((∃ s ∈ r.routesFor (some method), s.isSame route = false ∧
          ∃ e, attempt r.config (r.strip uri) s = .error e) ∨
        ∃ found, (r.find uri method).answer = .ok found ∧
          found.filter (·.route.isSame route) = [⟨route, o.names.zip (values.map Value.inUri)⟩]) := by
  have hi := hr.indexed
  have hroute : route ∈ r.routes := List.mem_of_mem_filter (honce ▸ List.mem_singleton_self route)
  have hlength' : values.length = o.parts.length := by rw [hlength, Outline.names, List.length_map]
  have htexts : (values.map Value.inUri).length = o.parts.length := by rw [List.length_map, hlength']
  have hfits : ∀ v ∈ values.map Value.inUri, Outline.Fits v := by
    intro v hv
    obtain ⟨w, hw, rfl⟩ := List.mem_map.1 hv
    exact (hvalues w hw).2
  obtain ⟨hknown, p, hp⟩ := hi.compile_of_mem hroute htemplate hmethod
  refine ⟨_, hi.uriFor_eq hbare hroute ho htemplate hp htarget hlength' (fun v hv => (hvalues v hv).1) hparameters, ?_⟩
  obtain ⟨rest, hstart, hhead⟩ := fill_start ho htexts hfits
  -- the route's own match
  have hown : attempt r.config (o.fill (values.map Value.inUri)) route =
      .ok (some ⟨route, o.names.zip (values.map Value.inUri)⟩) := by
    simp only [attempt, htemplate, Option.getD_some, hp, parameters?_fill hbare ho hp htexts hfits]
    rfl
  -- the route is tried once
  have htried : (r.routesFor (some method)).filter (·.isSame route) = [route] := by
    have hvisible : route.isVisible method = true := by simp [Route.isVisible, hmethod]
    rw [hi.routesFor, if_pos hknown, List.filter_filter]
    simp only [Bool.and_comm (Route.isSame _ route)]
    rw [← List.filter_filter, honce, List.filter_singleton, hvisible]
    rfl
  exact hi.found_once (strip_outer r hstart hhead) hown htried

/-- two placeholders, their values given the other way round, and a context path that ends in a slash -/
theorem find_uriFor_mounted :
    let o : Outline := ⟨"/u/".toList, [(['x'], "/p/".toList), (['y'], [])]⟩
    let route : Route := ⟨0, some Method.get, some o.text, .function [], some ['n']⟩
    let r := run (.empty { Config.standard with contextPath := "/app/".toList }) [.add route]
    ∃ uri, r.uriFor ['n'] [(['y'], .text ['b']), (['x'], .integer 5)] = .ok uri ∧
      ((∃ s ∈ r.routesFor (some Method.get), s.isSame route = false ∧
          ∃ e, attempt r.config (r.strip uri) s = .error e) ∨
        ∃ found, (r.find uri Method.get).answer = .ok found ∧
          found.filter (·.route.isSame route) = [⟨route, [(['x'], ['5']), (['y'], ['b'])]⟩]) := by
  intro o route r
  have honce : r.routes.filter (·.isSame route) = [route] := by
    have hroutes : r.routes = [route] := routes_step_add (by decide +kernel)
    rw [hroutes]
    rfl
  have ho : o.IsSegmented := by
    constructor
    · decide
    · decide
    · decide +kernel
    · decide
    · exact ⟨"u/".toList, rfl, by decide⟩
    · decide
    · decide
  have hvalues : ∀ v ∈ [Value.integer 5, .text ['b']], v ≠ .absent ∧ v.inUri ≠ [] ∧ '/' ∉ v.inUri := by
    intro v hv
    rcases List.mem_cons.1 hv with rfl | hv
    · exact ⟨nofun, by decide +kernel, by decide +kernel⟩
    · obtain rfl := List.mem_singleton.1 hv
      exact ⟨nofun, by decide, by decide⟩
  have hbare : r.config.bareConstraint = Config.standard.bareConstraint := by
    rw [config_run]
    rfl
  have hzip : o.names.zip ([Value.integer 5, .text ['b']].map Value.inUri) = [(['x'], ['5']), (['y'], ['b'])] := by
    decide +kernel
  rw [← hzip]
  exact find_uriFor ⟨_, _, rfl⟩ hbare honce ho rfl rfl (.inl ⟨rfl, by decide⟩) rfl hvalues (List.Perm.swap _ _ [])

/-- a pattern can fail on a path: this one has its placeholder within a set, where it is no group -/
theorem attempt_placeholder_in_set : attempt .standard "/a/v".toList
    ⟨1, some Method.get, some "/.*[\x7by: v\x7d]?".toList, .function [], none⟩ = .error .missingGroup := by
  have hanswer : Pattern.answer .standard "/.*[\x7by: v\x7d]?".toList "/a/v".toList = .error .missingGroup := by
    rw [Pattern.answer_eq_find?]
    decide +kernel
  rw [attempt_eq_answer rfl, hanswer]
  rfl

/-- where reverse routing is not undone. A value that stands for no value reads as text without a slash, but is none to
render; an empty name is a name, but none to ask for a URI by; and another route's pattern can fail on the path -/
theorem round_trip_refused :
    let o : Outline := ⟨"/a/".toList, [(['x'], [])]⟩
    let route : Route := ⟨0, some Method.get, some o.text, .function [], some []⟩
    let other : Route := ⟨1, some Method.get, some "/.*[\x7by: v\x7d]?".toList, .function [], none⟩
    let r := run (.empty .standard) [.add other, .add route]
    (Reachable r ∧ r.routes.filter (·.isSame route) = [route] ∧ o.IsSegmented ∧ Targets r route o.text ∧
      Value.absent.inUri ≠ [] ∧ '/' ∉ Value.absent.inUri ∧ route.name = some []) ∧
    r.uriFor o.text [(['x'], .absent)] = .error (.unresolvedParameter ['x'] o.text) ∧
    r.uriFor [] [(['x'], .text ['v'])] = .error .emptyPattern ∧
    r.uriFor o.text [(['x'], .text ['v'])] = .ok "/a/v".toList ∧
    (r.find "/a/v".toList Method.get).answer = .error .missingGroup := by
  intro o route other r
  have hreachable : Reachable r := ⟨_, _, rfl⟩
  have hroutes : r.routes = [other, route] := by
    have hother : (step (.empty .standard) (.add other)).routes = [other] := routes_step_add (by decide +kernel)
    calc
      r.routes = (step (.empty .standard) (.add other)).routes ++ [route] := routes_step_add (by decide +kernel)
      _ = [other, route] := by rw [hother]; rfl
  have ho : o.IsSegmented := by
    constructor
    · decide
    · decide
    · decide +kernel
    · decide
    · exact ⟨"a/".toList, rfl, by decide⟩
    · decide
    · decide
  have hfind : (r.find "/a/v".toList Method.get).answer = .error .missingGroup := by
    have hconfig : r.config = .standard := config_run _ _
    have hvisible : r.routesFor (some Method.get) = [other, route] := by
      rw [hreachable.indexed.routesFor, if_pos (by decide), hroutes]
      rfl
    rw [hreachable.indexed.reflects.found, hvisible, hconfig, mapM_cons_error]
    · rfl
    · rw [Router.strip, Router.mount, hconfig]
      exact attempt_placeholder_in_set
  refine ⟨⟨hreachable, ?_, ho, .inr ⟨rfl, ?_⟩, by decide, by decide, rfl⟩, by decide +kernel, rfl, by decide +kernel, hfind⟩
  · rw [hroutes]
    rfl
  · intro s hs
    rw [hroutes] at hs
    rcases List.mem_cons.1 hs with rfl | hs
    · decide
    · rw [List.mem_singleton.1 hs]
      decide

end UriRouting.Router
