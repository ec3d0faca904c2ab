/-
Four ways to present a group. A module may hold the group itself, a router in which its routes were registered one by one, or
a factory for one of the two. Where the group can be loaded, all four stand for one router, so that runs with them end alike and
write the same. Only log records tell them apart: a router that is there already has nothing to log.

- `exists_provides`: the presentations of a group stand for one router.
- `answer_resolve_of_exchanged`: modules that present the group in other ways lead to the same routers, and to the same failures.
- `presentations_alike`: runs with exchanged presentations, whatever the words, and with import strings of two presentations.
-/
import UriRouting.Proofs.CommandLine.Pairs
import UriRouting.Proofs.Router.OneByOne

namespace UriRouting.CommandLine

open Router

/-! ## Presentations -/

/-- the attribute is the group, a router with the group's routes, or a factory for one of the two -/
inductive Presents (g : Group) : Attribute → Prop
  | group : Presents g (.group g)
  | groupFactory (events : List Event) : Presents g (.factory (.ok (.group g)) events)
  | router : Presents g (.router ((Router.empty .standard).addEach g.allRoutes).router)
  | routerFactory (events : List Event) :
    Presents g (.factory (.ok (.router ((Router.empty .standard).addEach g.allRoutes).router)) events)

/-- a fresh router takes the group -/
def IsLoadable (g : Group) : Prop := ∃ routes, ((Router.empty .standard).addGroup g).answer = .ok routes

theorem exists_register_of_loadable {g : Group} (h : IsLoadable g) :
    ∃ r, (Router.empty .standard).register g.allRoutes = .ok r := by
  obtain ⟨routes, hroutes⟩ := h
  rcases addAll_cases (.empty .standard) g.allRoutes with ⟨r, hr, -⟩ | ⟨e, -, hfailed⟩
  · exact ⟨r, hr⟩
  · rw [addGroup, hfailed] at hroutes
    cases hroutes

/-- **The presentations of a group stand for one router**, which has the group's routes -/
theorem exists_provides {g : Group} (h : IsLoadable g) :
    ∃ r, r.routes = g.allRoutes ∧ ∀ a, Presents g a → Provides a r := by
  obtain ⟨r, hr⟩ := exists_register_of_loadable h
  have hsame : ((Router.empty .standard).addEach g.allRoutes).router = r := by
    rw [addEach_of_register (indexed_empty .standard) hr]
  refine ⟨r, routes_register hr, ?_⟩
  intro a ha
  cases ha with
  | group => exact .group rfl hr
  | groupFactory => exact .group rfl hr
  | router => exact .router (congrArg (Except.ok ∘ Attribute.router) hsame)
  | routerFactory => exact .router (congrArg (Except.ok ∘ Attribute.router) hsame)

/-! ## Modules with exchanged presentations -/

/-- the same attribute, or two presentations of the group -/
def Exchanged (g : Group) (a b : Attribute) : Prop := a = b ∨ (Presents g a ∧ Presents g b)

/-- two modules of one name, with the same attributes but for presentations of the group -/
structure Module.Exchanged (g : Group) (m n : Module) : Prop where
  name : m.name = n.name
  attributes : List.Forall₂ (fun p q => p.1 = q.1 ∧ CommandLine.Exchanged g p.2 q.2) m.attributes n.attributes

/-- the same failure, or values that are related -/
def SameOutcome {ε α β : Type} (R : α → β → Prop) (x : Except ε α) (y : Except ε β) : Prop :=
  (∃ e, x = .error e ∧ y = .error e) ∨ ∃ a b, x = .ok a ∧ y = .ok b ∧ R a b

/-- nothing in both, or values that are related -/
def BothFind {α β : Type} (R : α → β → Prop) (x : Option α) (y : Option β) : Prop :=
  (x = none ∧ y = none) ∨ ∃ a b, x = some a ∧ y = some b ∧ R a b

theorem lookup_of_exchanged {g : Group} {attributes attributes' : List (Text × Attribute)}
    (h : List.Forall₂ (fun p q => p.1 = q.1 ∧ Exchanged g p.2 q.2) attributes attributes') (name : Text) :
    BothFind (Exchanged g) (attributes.lookup name) (attributes'.lookup name) := by
  induction h with
  | nil => exact .inl ⟨rfl, rfl⟩
  | @cons p q _ _ hpq _ ih =>
    obtain ⟨key, a⟩ := p
    obtain ⟨_, b⟩ := q
    obtain ⟨rfl, hab⟩ := hpq
    rw [List.lookup_cons, List.lookup_cons]
    cases name == key with
    | true => exact .inr ⟨a, b, rfl, rfl, hab⟩
    | false => exact ih

/-- what every module has is the same in both -/
theorem attribute?_of_exchanged {g : Group} {m n : Module} (h : m.Exchanged g n) (name : Text) :
    BothFind (Exchanged g) (m.attribute? name) (n.attribute? name) := by
  have hstandard : m.standard = n.standard := by
    rw [Module.standard, Module.standard, h.name]
  rw [Module.attribute?, Module.attribute?, hstandard]
  rcases lookup_of_exchanged h.attributes name with ⟨hm, hn⟩ | ⟨a, b, hm, hn, hab⟩
  · rw [hm, hn]
    cases hlookup : n.standard.lookup (String.ofList name) with
    | none => exact .inl ⟨rfl, rfl⟩
    | some a => exact .inr ⟨a, a, rfl, rfl, .inl rfl⟩
  · rw [hm, hn]
    exact .inr ⟨a, b, rfl, rfl, hab⟩

theorem find?_of_exchanged {g : Group} {modules modules' : List Module} (h : List.Forall₂ (Module.Exchanged g) modules modules')
    (name : Text) : BothFind (Module.Exchanged g) (modules.find? (·.name = name)) (modules'.find? (·.name = name)) := by
  induction h with
  | nil => exact .inl ⟨rfl, rfl⟩
  | @cons m n _ _ hmn _ ih =>
    rw [List.find?_cons, List.find?_cons, ← hmn.name]
    cases decide (m.name = name) with
    | true => exact .inr ⟨m, n, rfl, rfl, hmn⟩
    | false => exact ih

theorem importTo_of_exchanged {g : Group} {modules modules' : List Module}
    (h : List.Forall₂ (Module.Exchanged g) modules modules') (levels : Nat) (name : Text) :
    SameOutcome (Module.Exchanged g) (importTo modules levels name) (importTo modules' levels name) := by
  induction levels generalizing name with
  | zero => exact .inl ⟨_, rfl, rfl⟩
  | succ levels ih =>
    rw [importTo, importTo]
    rcases find?_of_exchanged h name with ⟨hm, hn⟩ | ⟨m, n, hm, hn, hmn⟩
    · rw [hm, hn]
      cases parent? name with
      | none => exact .inl ⟨_, rfl, rfl⟩
      | some parent =>
        cases parent with
        | nil => exact .inl ⟨_, rfl, rfl⟩
        | cons c parent =>
          rcases ih (c :: parent) with ⟨e, hm, hn⟩ | ⟨m, n, hm, hn, -⟩
          · exact .inl ⟨e, by simp only [hm], by simp only [hn]⟩
          · exact .inl ⟨.notPackage name (c :: parent), by simp only [hm], by simp only [hn]⟩
    · rw [hm, hn]
      exact .inr ⟨m, n, rfl, rfl, hmn⟩

theorem importModule_of_exchanged {g : Group} {modules modules' : List Module}
    (h : List.Forall₂ (Module.Exchanged g) modules modules') (name : Text) :
    SameOutcome (Module.Exchanged g) (importModule modules name) (importModule modules' name) := by
  unfold importModule
  split
  · exact .inl ⟨_, rfl, rfl⟩
  · exact .inl ⟨_, rfl, rfl⟩
  · exact importTo_of_exchanged h _ _

/-- two presentations of the group, wherever they stand -/
theorem answer_resolve_of_presents {g : Group} (hg : IsLoadable g) {modules modules' : List Module} {target target' : Text}
    {a a' : Attribute} (ha : Names modules target a) (ha' : Names modules' target' a') (hpresents : Presents g a)
    (hpresents' : Presents g a') : (resolve modules target).answer = (resolve modules' target').answer := by
  obtain ⟨r, -, hr⟩ := exists_provides hg
  rw [answer_resolve_iff.2 ⟨a, ha, hr a hpresents⟩, answer_resolve_iff.2 ⟨a', ha', hr a' hpresents'⟩]

/-- **Exchanged presentations lead to the same router**, and where there is none to the same failure -/
theorem answer_resolve_of_exchanged {g : Group} (hg : IsLoadable g) {modules modules' : List Module}
    (h : List.Forall₂ (Module.Exchanged g) modules modules') (target : Text) :
    (resolve modules target).answer = (resolve modules' target).answer := by
  rcases importModule_of_exchanged h (splitImport target).1 with ⟨e, hm, hn⟩ | ⟨m, n, hm, hn, hmn⟩
  · simp only [resolve, hm, hn]
  · rcases attribute?_of_exchanged hmn (splitImport target).2 with ⟨ha, hb⟩ | ⟨a, b, ha, hb, rfl | ⟨hga, hgb⟩⟩
    · simp only [resolve, hm, hn, ha, hb]
    · simp only [resolve, hm, hn, ha, hb]
    · exact answer_resolve_of_presents hg ⟨m, hm, ha⟩ ⟨n, hn, hb⟩ hga hgb

/-! ## What a user sees -/

/-- the runs end alike and write the same, log records apart -/
structure LooksLike (x y : Report) : Prop where
  ending : x.ending = y.ending
  output : x.output = y.output
  errors : x.errors false = y.errors false

theorem LooksLike.refl (x : Report) : LooksLike x x := ⟨rfl, rfl, rfl⟩

/-- the same router, or the same failure, after whatever was logged -/
theorem looksLike_withRouter {modules modules' : List Module} {target target' : Text}
    (h : (resolve modules target).answer = (resolve modules' target').answer) (next : Router → Report) :
    LooksLike (withRouter modules target next) (withRouter modules' target' next) := by
  simp only [withRouter, h]
  constructor
  · simp only [Report.ending_behind]
  · simp only [Report.output_behind]
  · simp only [Report.errors_behind]

theorem looksLike_perform {modules modules' : List Module} {c : Command} {a a' : Arguments} (hnext : c.next a = c.next a')
    (h : (resolve modules (a.wordAt 0)).answer = (resolve modules' (a'.wordAt 0)).answer) :
    LooksLike (perform modules a c) (perform modules' a' c) := by
  cases hc : c.next a with
  | error w =>
    rw [perform_error hc, perform_error (hnext.symm.trans hc)]
    exact .refl _
  | ok next =>
    rw [perform_ok hc, perform_ok (hnext.symm.trans hc)]
    exact looksLike_withRouter h next

theorem looksLike_dispatch {modules modules' : List Module}
    (h : ∀ target, (resolve modules target).answer = (resolve modules' target).answer) (extras : List Text) (name : Text)
    (words : List Text) : LooksLike (dispatch modules extras name words) (dispatch modules' extras name words) := by
  unfold dispatch
  cases commands.find? (·.name = name) with
  | none => exact .refl _
  | some c =>
    dsimp only
    cases c.grammar.read words with
    | error e => exact .refl _
    | ok a =>
      dsimp only
      cases extras ++ a.extras with
      | nil => exact looksLike_perform rfl (h _)
      | cons => exact .refl _

theorem looksLike_run {modules modules' : List Module}
    (h : ∀ target, (resolve modules target).answer = (resolve modules' target).answer) (words : List Text) :
    (run modules words).1 = (run modules' words).1 ∧ LooksLike (run modules words).2 (run modules' words).2 := by
  unfold run
  cases grammar.read words with
  | error e => exact ⟨rfl, .refl _⟩
  | ok a =>
    refine ⟨rfl, ?_⟩
    dsimp only
    split
    · exact looksLike_dispatch h _ _ _
    · exact .refl _
    · exact .refl _

/-! ## Import strings exchanged -/

theorem readWords_lead (g : Grammar) {front : List Text} {w w' : Text} (hw : Leads front w) (hw' : Leads front w')
    (rest : List Text) :
    SameOutcome (fun _ _ => True) (g.readWords (front ++ w :: rest)) (g.readWords (front ++ w' :: rest)) := by
  cases hw with
  | plain hplain =>
    cases hw' with
    | plain hplain' =>
      rw [List.nil_append, List.nil_append, g.readWords_cons hplain, g.readWords_cons hplain']
      cases g.readWords rest with
      | error e => exact .inl ⟨e, rfl, rfl⟩
      | ok items => exact .inr ⟨_, _, rfl, rfl, trivial⟩
  | separator =>
    cases hw' with
    | separator => exact .inr ⟨_, _, g.readWords_separator _, g.readWords_separator _, trivial⟩

/-- what a command goes on with does not depend on the import string -/
theorem next_aimedAt (c : Command) (w w' : Text) (a : Arguments) : c.next (a.aimedAt w) = c.next (a.aimedAt w') := by
  cases c with
  | listRoutes => rfl
  | matchPath => simp only [Command.next, Arguments.word?, wordsAt_aimedAt]
  | renderUrl => simp only [Command.next, Arguments.wordAt, Arguments.word?, wordsAt_aimedAt]

theorem looksLike_run_lead {modules modules' : List Module} {target target' : Text}
    (h : (resolve modules target).answer = (resolve modules' target').answer) (c : Command) {front : List Text}
    (hlead : Leads front target) (hlead' : Leads front target') (rest : List Text) :
    let (shown, report) := run modules (c.name :: (front ++ target :: rest))
    let (shown', report') := run modules' (c.name :: (front ++ target' :: rest))
    shown = false ∧ shown' = false ∧ LooksLike report report' := by
  rcases readWords_lead grammar hlead hlead' rest with ⟨e, he, he'⟩ | ⟨items, items', hitems, hitems', -⟩
  · rw [(run_of_readWords_error he modules c).1, (run_of_readWords_error he' modules' c).1]
    exact ⟨rfl, rfl, .refl _⟩
  · obtain ⟨read, hread⟩ := read_lead c front rest
    rw [(run_of_readWords hitems modules c).1, (run_of_readWords hitems' modules' c).1]
    refine ⟨rfl, rfl, ?_⟩
    simp only [dispatch, find?_name, hread target hlead, hread target' hlead']
    cases read with
    | error e => exact .refl _
    | ok a =>
      simp only [Except.map, extras_aimedAt, List.nil_append]
      cases a.extras with
      | nil => exact looksLike_perform (next_aimedAt c target target' a) h
      | cons => exact .refl _

/-- **The presentations of a group that can be loaded look alike.** All lead to one router, which has the group's routes. Modules
in which they are exchanged give runs that end alike and write the same, whatever the words; and so do import strings that lead
to two of them, with the same words behind. -/
theorem presentations_alike {g : Group} (hg : IsLoadable g) :
    (∃ r, r.routes = g.allRoutes ∧
      ∀ modules target a, Names modules target a → Presents g a → Obtains modules target r) ∧
    (∀ modules modules', List.Forall₂ (Module.Exchanged g) modules modules' → ∀ words,
      let (shown, report) := run modules words
      let (shown', report') := run modules' words
      shown = shown' ∧ LooksLike report report') ∧
    ∀ modules modules' target target' a a', Names modules target a → Names modules' target' a' →
      Presents g a → Presents g a' → ∀ (c : Command) front rest, Leads front target → Leads front target' →
      let (shown, report) := run modules (c.name :: (front ++ target :: rest))
      let (shown', report') := run modules' (c.name :: (front ++ target' :: rest))
      shown = false ∧ shown' = false ∧ LooksLike report report' := by
  refine ⟨?_, ?_, ?_⟩
  · obtain ⟨r, hroutes, hr⟩ := exists_provides hg
    refine ⟨r, hroutes, ?_⟩
    intro modules target a ha hpresents
    exact ⟨a, ha, hr a hpresents⟩
  · intro modules modules' h words
    exact looksLike_run (answer_resolve_of_exchanged hg h) words
  · intro modules modules' target target' a a' ha ha' hpresents hpresents' c front rest hlead hlead'
    exact looksLike_run_lead (answer_resolve_of_presents hg ha ha' hpresents hpresents') c hlead hlead' rest

/-- a nested group and a router with its routes, for a request that is found and one that is not -/
theorem presentations_alike_nested :
    let g := Group.mk [] [⟨0, some Method.get, some "/a".toList, .function [], some ['n']⟩]
      [.mk "/b".toList [⟨1, some Method.all, some "/b/\x7bx\x7d".toList, .function "show".toList, none⟩] []]
    let r := ((Router.empty .standard).addEach g.allRoutes).router
    let modules : List Module := [⟨"app".toList, [("g".toList, .group g), ("r".toList, .router r)]⟩]
    let modules' : List Module := [⟨"app".toList, [("g".toList, .factory (.ok (.router r)) []), ("r".toList, .router r)]⟩]
    IsLoadable g ∧ List.Forall₂ (Module.Exchanged g) modules modules' ∧
      Names modules "app:g".toList (.group g) ∧ Names modules "app:r".toList (.router r) ∧
      LooksLike (run modules ["match".toList, "app:g".toList, "GET".toList, "/c".toList]).2
        (run modules' ["match".toList, "app:g".toList, "GET".toList, "/c".toList]).2 ∧
      LooksLike (run modules ["match".toList, "app:g".toList, "GET".toList, "/b/7".toList]).2
        (run modules ["match".toList, "app:r".toList, "GET".toList, "/b/7".toList]).2 := by
  intro g r modules modules'
  have hg : IsLoadable g := Results.isOk_iff.1 (by decide +kernel)
  have hexchanged : List.Forall₂ (Module.Exchanged g) modules modules' :=
    .cons ⟨rfl, .cons ⟨rfl, .inr ⟨.group, .routerFactory []⟩⟩ (.cons ⟨rfl, .inl rfl⟩ .nil)⟩ .nil
  have hgroup : Names modules "app:g".toList (.group g) := ⟨_, rfl, rfl⟩
  have hrouter : Names modules "app:r".toList (.router r) := ⟨_, rfl, rfl⟩
  obtain ⟨-, hsame, hlead⟩ := presentations_alike hg
  refine ⟨hg, hexchanged, hgroup, hrouter, ?_, ?_⟩
  · exact (hsame modules modules' hexchanged ["match".toList, "app:g".toList, "GET".toList, "/c".toList]).2
  · exact (hlead modules modules _ _ _ _ hgroup hrouter .group .router .matchPath []
      ["GET".toList, "/b/7".toList] (.plain (by decide)) (.plain (by decide))).2.2

end UriRouting.CommandLine
