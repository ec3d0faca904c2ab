/-
The placeholders of nested routes. A route has those of the bases on the way to its group, from the root on, and then its own;
compiling its template tells of a repeated name when two of all these are the same.

- `assemble_error_iff`: where the constraints expand, only a repeated name is told, and it is the first one to come again.
- `carries_of_tokenized`: what the placeholders of a template mean for compiling it.
- `nested_placeholders`: two templates joined, and every route of every tree of groups.
-/
import UriRouting.Proofs.Group.Growth
import UriRouting.Proofs.Pattern.Compiled
import UriRouting.Proofs.Template.Joining

namespace UriRouting

open Results Template

/-! ## Repeated names -/

namespace Pattern

/-- the constraints among tokens expand -/
def Expands (tokens : List Token) : Prop :=
  ∀ name constraint, .parameter name (some constraint) ∈ tokens → ∃ b, expand constraint = .ok b

/-- the name is the first to come again -/
def IsRepeated (name : Text) (names : List Text) : Prop :=
  ∃ before after, names = before ++ name :: after ∧ before.Nodup ∧ name ∈ before

theorem exists_isRepeated_iff {names : List Text} : (∃ name, IsRepeated name names) ↔ ¬names.Nodup := by
  constructor
  · rintro ⟨name, before, after, rfl, -, hmem⟩ hnodup
    exact (List.nodup_append.1 hnodup).2.2 name hmem name List.mem_cons_self rfl
  · induction names using List.reverseRecOn with
    | nil => exact fun h => absurd List.nodup_nil h
    | append_singleton names name ih =>
      intro h
      by_cases hnames : names.Nodup
      · have hmem : name ∈ names := by
          by_contra hnew
          exact h (hnames.append (List.nodup_singleton name) (by simpa using hnew))
        exact ⟨name, names, [], rfl, hnames, hmem⟩
      · obtain ⟨first, before, after, rfl, hbefore⟩ := ih hnames
        exact ⟨first, before, after ++ [name], by simp, hbefore⟩

theorem exists_body {tokens : List Token} (h : Expands tokens) (config : Config) {name : Text} {constraint : Option Text}
    (hmem : .parameter name constraint ∈ tokens) : ∃ b, body config constraint = .ok b := by
  cases constraint with
  | none => exact ⟨_, rfl⟩
  | some k =>
    obtain ⟨b, hb⟩ := h name k hmem
    exact ⟨b, by rw [body, hb]; rfl⟩

/-- **Where the constraints expand, only a repeated name is told**: the first that is seen already -/
theorem assemble_error_iff {config : Config} {tokens : List Token} (hexpands : Expands tokens) {seen : List Text}
    (hseen : seen.Nodup) {f : Fault} : assemble config seen tokens = .error f ↔
      ∃ before name after, f = .duplicate name ∧ Template.names tokens = before ++ name :: after ∧
        (seen ++ before).Nodup ∧ name ∈ seen ++ before := by
  induction tokens generalizing seen with
  | nil => simp [assemble, Template.names]
  | cons token tokens ih =>
    have hrest : Expands tokens := fun name k hmem => hexpands name k (List.mem_cons_of_mem _ hmem)
    cases token with
    | literal t =>
      rw [assemble, map_eq_error_iff, ih hrest hseen]
      rfl
    | parameter n constraint =>
      have hnames : Template.names (.parameter n constraint :: tokens) = n :: Template.names tokens := rfl
      rw [assemble, hnames]
      split
      · rename_i hn
        constructor
        · intro h
          exact ⟨[], n, _, (Except.error.inj h).symm, rfl, by simpa using hseen, by simpa using hn⟩
        · -- a name seen already is in front of no other one that is told
          rintro ⟨before, name, after, rfl, hsplit, hnodup, hmem⟩
          cases before with
          | nil => rw [(List.cons.inj hsplit).1]
          | cons m before =>
            obtain rfl := (List.cons.inj hsplit).1
            exact absurd rfl ((List.nodup_append.1 hnodup).2.2 n hn n List.mem_cons_self)
      · rename_i hn
        obtain ⟨b, hb⟩ := exists_body hexpands config List.mem_cons_self
        have hmore : (seen ++ [n]).Nodup := hseen.append (List.nodup_singleton n) (by simpa using hn)
        simp only [hb, map_eq_error_iff]
        rw [ih hrest hmore]
        constructor
        · rintro ⟨before, name, after, rfl, hsplit, hnodup, hmem⟩
          exact ⟨n :: before, name, after, rfl, by rw [hsplit]; rfl, by simpa using hnodup, by simpa using hmem⟩
        · rintro ⟨before, name, after, rfl, hsplit, hnodup, hmem⟩
          cases before with
          | nil =>
            rw [List.append_nil, ← (List.cons.inj hsplit).1] at hmem
            exact absurd hmem hn
          | cons m before =>
            obtain ⟨rfl, hbehind⟩ := List.cons.inj hsplit
            exact ⟨before, name, after, rfl, hbehind, by simpa using hnodup, by simpa using hmem⟩

/-- a template has these placeholders; compiling it tells of the first name that comes again among them, if one does -/
structure Carries (t : Text) (parameters : List Token) : Prop where
  tokenized : Tokenized t parameters
  told : Expands parameters → ∀ config name, compile config t = .error (.compilation t (.duplicate name)) ↔
    IsRepeated name (Template.names parameters)
  refused : Expands parameters → ∀ config, (∃ name, compile config t = .error (.compilation t (.duplicate name))) ↔
    ¬(Template.names parameters).Nodup

theorem compile_duplicate_iff {config : Config} {t : Text} {tokens : List Token} (htokens : tokenize t = .ok tokens)
    {name : Text} : compile config t = .error (.compilation t (.duplicate name)) ↔
      assemble config [] tokens = .error (.duplicate name) := by
  simp only [compile, htokens]
  cases assemble config [] tokens with
  | error f => simp
  | ok source =>
    simp only [reduceCtorEq, iff_false]
    split <;> simp

/-- **The placeholders of a template say when it is refused for a repeated name** -/
theorem carries_of_tokenized {t : Text} {parameters : List Token} (h : Tokenized t parameters) : Carries t parameters := by
  have htold : Expands parameters → ∀ config name, compile config t = .error (.compilation t (.duplicate name)) ↔
      IsRepeated name (Template.names parameters) := by
    obtain ⟨tokens, htokens, rfl⟩ := h
    intro hexpands config name
    have htokensExpand : Expands tokens := fun n k hmem =>
      hexpands n k (List.mem_filter.2 ⟨hmem, by simp [Token.IsLiteral]⟩)
    rw [compile_duplicate_iff htokens, assemble_error_iff htokensExpand List.nodup_nil, names_placeholders]
    simp [IsRepeated]
  refine ⟨h, htold, fun hexpands config => ?_⟩
  rw [← exists_isRepeated_iff]
  exact exists_congr (htold hexpands config)

end Pattern

/-! ## Nested routes -/

namespace Forest

/-- the template of a route that has one in a group: the bases on the way there, and what was given for the route, if anything -/
theorem settled_template {path : List Text} {route : Route} {t : Text} (h : (settled path route).template = some t) :
    t = path.foldr Uri.join (route.template.getD []) := by
  cases htemplate : route.template with
  | some own =>
    rw [settled, htemplate, Group.foldr_place_some] at h
    exact (Option.some.inj h).symm
  | none =>
    rw [settled, htemplate, ← Group.place_foldr_join, Group.place] at h
    split at h
    · cases h
    · exact (Option.some.inj h).symm

/-- **Nested routes have the placeholders of all bases, outermost first, and then their own.** Two templates joined have those
of the one in front of those of the other. So it is for every route of a tree of groups, whatever its history: where the bases
on the way to its group have placeholders and what was given for it has, its template has them all in that order, and compiling
it tells of a repeated name when two of them are the same. -/
theorem nested_placeholders :
    (∀ p q ps qs, Tokenized p ps → Tokenized q qs → Tokenized (Uri.join p q) (ps ++ qs)) ∧
    ∀ root calls, (empty.plant root).Admits calls →
      (∀ s, s ∈ (((empty.plant root).run calls).tree 0).allRoutes ↔
        ∃ d ∈ declarations calls, settled (pathTo root calls d.1) d.2 = s) ∧
      ∀ n route, (n, route) ∈ declarations calls → ∀ lists own,
        List.Forall₂ Tokenized (pathTo root calls n) lists → Tokenized (route.template.getD []) own →
        ∀ t, (settled (pathTo root calls n) route).template = some t → Pattern.Carries t (lists.flatten ++ own) := by
  refine ⟨fun p q ps qs => tokenized_join, fun root calls hadmits => ⟨fun s => ?_, ?_⟩⟩
  · have hf : Recorded root calls ((empty.plant root).run calls) := recorded_run (recorded_plant root) calls hadmits
    rw [hf.perm_allRoutes.mem_iff, declared, List.mem_map]
  · intro n route _ lists own hlists hown t ht
    rw [settled_template ht]
    exact Pattern.carries_of_tokenized (tokenized_foldr_join hlists hown)

/-- a base that ends in several slashes, one that ends in an escaped slash, one that is a lone backslash, and a name that comes
again in the innermost group -/
theorem nested_placeholders_cut :
    let route : Route := ⟨0, none, some "/\x7ba: [:digit:]+\x7d".toList, .function [], none⟩
    let calls : List Call := [.nest 0 "\x7bb: \\d\x7b2\x7d\x7d\\//".toList, .nest 1 "\\".toList, .declare 2 .get route]
    let joined := "/\x7ba\x7d/\x7bb: \\d\x7b2\x7d\x7d\\/\\/\x7ba: [:digit:]+\x7d".toList
    let parameters : List Token := [.parameter ['a'] none, .parameter ['b'] (some "\\d\x7b2\x7d".toList),
      .parameter ['a'] (some "[:digit:]+".toList)]
    (empty.plant "/\x7ba\x7d//".toList).Admits calls ∧
      (settled (pathTo "/\x7ba\x7d//".toList calls 2) (Via.get.route route)).template = some joined ∧
      Pattern.Carries joined parameters ∧ Pattern.Expands parameters ∧
      Pattern.compile .standard joined = .error (.compilation joined (.duplicate ['a'])) ∧
      Tokenized (Uri.join "\x7ba\x7d\\".toList "//\x7bb\x7d".toList) [.parameter ['a'] none, .parameter ['b'] none] := by
  intro route calls joined parameters
  have hadmits : (empty.plant "/\x7ba\x7d//".toList).Admits calls := by decide +kernel
  have hpath : pathTo "/\x7ba\x7d//".toList calls 2 =
      ["/\x7ba\x7d//".toList, "\x7bb: \\d\x7b2\x7d\x7d\\//".toList, "\\".toList] := by decide +kernel
  have hbases : List.Forall₂ Tokenized (pathTo "/\x7ba\x7d//".toList calls 2)
      [[.parameter ['a'] none], [.parameter ['b'] (some "\\d\x7b2\x7d".toList)], []] := by
    rw [hpath]
    exact .cons (by decide +kernel) (.cons (by decide +kernel) (.cons (by decide +kernel) .nil))
  have hown : Tokenized "/\x7ba: [:digit:]+\x7d".toList [.parameter ['a'] (some "[:digit:]+".toList)] := by
    decide +kernel
  have htemplate : (settled (pathTo "/\x7ba\x7d//".toList calls 2) (Via.get.route route)).template = some joined := by
    decide +kernel
  have hexpands : Pattern.Expands parameters := by
    intro name k hmem
    simp only [parameters, List.mem_cons, List.not_mem_nil, or_false, Token.parameter.injEq, Option.some.injEq,
      reduceCtorEq, and_false, false_or] at hmem
    rcases hmem with ⟨-, rfl⟩ | ⟨-, rfl⟩
    · exact ⟨"\\d\x7b2\x7d".toList, by decide +kernel⟩
    · exact ⟨"[\\p\x7bNd\x7d]+".toList, by decide +kernel⟩
  have hdeclared : (2, Via.get.route route) ∈ declarations calls := List.mem_singleton_self _
  have hcarries : Pattern.Carries joined parameters :=
    (nested_placeholders.2 _ calls hadmits).2 2 _ hdeclared _ _ hbases hown joined htemplate
  refine ⟨hadmits, htemplate, hcarries, hexpands, ?_, ?_⟩
  · exact (hcarries.told hexpands .standard ['a']).2 ⟨[['a'], ['b']], [], rfl, by decide, by decide⟩
  · have hleft : Tokenized "\x7ba\x7d\\".toList [.parameter ['a'] none] := by decide +kernel
    have hright : Tokenized "//\x7bb\x7d".toList [.parameter ['b'] none] := by decide +kernel
    exact nested_placeholders.1 _ _ _ _ hleft hright

end Forest

end UriRouting
