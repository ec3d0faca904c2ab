/-
Words of the form `key=value`, and the URI that is rendered from them. A word is cut at its first equals sign; what stands behind
it is the value as it is. A key given again keeps its place and takes the new value (`collected`). The words are looked at
before anything else, so the first one of another form ends the run, whatever modules there are.

- `readPairs_collected`, `readPairs_error`: what the words give.
- `url_renders`: the whole of a run that renders a URI.
-/
import UriRouting.Proofs.CommandLine.Reading
import UriRouting.Proofs.CommandLine.Targets

namespace UriRouting.CommandLine

/-! ## Reading pairs -/

/-- the word is a key that is not empty, an equals sign, and a value -/
def IsPair (w : Text) : Prop := ∃ key v, w = key ++ '=' :: v ∧ key ≠ [] ∧ '=' ∉ key

/-- the text before the first equals sign, and the text behind it -/
def splitPair (w : Text) : Text × Text := ((w.cutAt '=').1, (w.cutAt '=').2.getD [])

def lastGiven (given : List (Text × Text)) (key : Text) : Text := (given.reverse.lookup key).getD []

/-- each key once, where it is given first, with the value given last -/
def collected (given : List (Text × Text)) : Uri.Parameters :=
  (given.map Prod.fst).eraseDups.map fun key => (key, .text (lastGiven given key))

theorem cutAt_of_isPair {w : Text} (h : IsPair w) :
    w.cutAt '=' = ((splitPair w).1, some (splitPair w).2) ∧ (splitPair w).1 ≠ [] := by
  obtain ⟨key, v, rfl, hkey, hmem⟩ := h
  simp only [splitPair, Text.cutAt_of_not_mem hmem, Option.getD_some, hkey, ne_eq, not_false_eq_true, and_self]

theorem isPair_of_cutAt {w key v : Text} (hcut : w.cutAt '=' = (key, some v)) (hkey : key ≠ []) : IsPair w := by
  have hwhole := Text.cutAt_append '=' w
  have hmem := Text.not_mem_cutAt '=' w
  rw [hcut] at hwhole hmem
  exact ⟨key, v, hwhole, hkey, hmem⟩

theorem isPair_iff {w : Text} : IsPair w ↔ (w.cutAt '=').2.isSome = true ∧ (w.cutAt '=').1 ≠ [] := by
  refine ⟨?_, ?_⟩
  · intro h
    obtain ⟨hcut, hkey⟩ := cutAt_of_isPair h
    rw [hcut]
    exact ⟨rfl, hkey⟩
  · rintro ⟨hsome, hkey⟩
    obtain ⟨v, hv⟩ := Option.isSome_iff_exists.1 hsome
    exact isPair_of_cutAt (Prod.ext rfl hv) hkey

instance (w : Text) : Decidable (IsPair w) := decidable_of_iff _ isPair_iff.symm

theorem readPairs_cons {w : Text} (h : IsPair w) (pairs : Uri.Parameters) (words : List Text) :
    readPairs pairs (w :: words) = readPairs (put pairs (splitPair w).1 (.text (splitPair w).2)) words := by
  obtain ⟨hcut, hkey⟩ := cutAt_of_isPair h
  rw [readPairs, hcut]
  split
  · rename_i heq
    exact absurd (congrArg Prod.fst heq) hkey
  · rename_i heq
    cases heq
  · rename_i key v _ heq
    obtain ⟨rfl, rfl⟩ : (splitPair w).1 = key ∧ (splitPair w).2 = v := by simpa using heq
    rfl

theorem readPairs_stop {w : Text} (h : ¬IsPair w) (pairs : Uri.Parameters) (words : List Text) :
    readPairs pairs (w :: words) = .error w := by
  rw [readPairs]
  split
  · rfl
  · rfl
  · rename_i key v hempty hcut
    refine absurd (isPair_of_cutAt hcut ?_) h
    rintro rfl
    exact hempty rfl

theorem lastGiven_snoc (given : List (Text × Text)) (key v k : Text) :
    lastGiven (given ++ [(key, v)]) k = if k = key then v else lastGiven given k := by
  rw [lastGiven, List.reverse_append, List.reverse_singleton, List.singleton_append, List.lookup_cons]
  by_cases h : k = key
  · rw [if_pos h, beq_iff_eq.2 h]
    rfl
  · rw [if_neg h, beq_eq_false_iff_ne.2 h, lastGiven]

/-- one more key: it is there already, or comes last -/
theorem eraseDups_snoc (keys : List Text) (key : Text) :
    (keys ++ [key]).eraseDups = if key ∈ keys then keys.eraseDups else keys.eraseDups ++ [key] := by
  rw [List.eraseDups_append]
  by_cases h : key ∈ keys
  · simp [h, List.removeAll]
  · simp [h, List.removeAll, List.eraseDups_cons]

/-- **One more pair**: its key stays where it is and takes the value, or comes last -/
theorem collected_snoc (given : List (Text × Text)) (key v : Text) :
    collected (given ++ [(key, v)]) = put (collected given) key (.text v) := by
  let entry := fun k => (k, Value.text (lastGiven given k))
  have hkeys : (given ++ [(key, v)]).map Prod.fst = given.map Prod.fst ++ [key] := List.map_append
  have hany : (collected given).any (fun p => decide (p.1 = key)) = decide (key ∈ given.map Prod.fst) := by
    rw [collected, List.any_map, Bool.eq_iff_iff, List.any_eq_true, decide_eq_true_iff, ← List.mem_eraseDups]
    simp
  have hold : ∀ k, k ≠ key → (k, Value.text (lastGiven (given ++ [(key, v)]) k)) = entry k := by
    intro k hk
    rw [lastGiven_snoc, if_neg hk]
  have hnew : (key, Value.text (lastGiven (given ++ [(key, v)]) key)) = (key, .text v) := by
    rw [lastGiven_snoc, if_pos rfl]
  rw [put, hany]
  by_cases hkey : key ∈ given.map Prod.fst
  · rw [if_pos (decide_eq_true hkey), collected, hkeys, eraseDups_snoc, if_pos hkey, collected, List.map_map]
    apply List.map_congr_left
    intro k _
    by_cases hk : k = key
    · subst hk
      rw [hnew]
      exact (if_pos rfl).symm
    · rw [hold k hk]
      exact (if_neg hk).symm
  · rw [if_neg (by simpa using hkey), collected, hkeys, eraseDups_snoc, if_neg hkey, List.map_append, List.map_singleton,
      hnew, collected]
    congr 1
    apply List.map_congr_left
    intro k hk
    refine hold k ?_
    rintro rfl
    exact hkey (List.mem_eraseDups.1 hk)

/-- **What pairs give**: each key where it is given first, with the value given last -/
theorem readPairs_collected (before : List (Text × Text)) {words : List Text} (h : ∀ w ∈ words, IsPair w) :
    readPairs (collected before) words = .ok (collected (before ++ words.map splitPair)) := by
  induction words generalizing before with
  | nil => rw [List.map_nil, List.append_nil]; rfl
  | cons w words ih =>
    calc readPairs (collected before) (w :: words)
        = readPairs (put (collected before) (splitPair w).1 (.text (splitPair w).2)) words :=
          readPairs_cons (h w List.mem_cons_self) _ _
      _ = readPairs (collected (before ++ [splitPair w])) words := by rw [← collected_snoc]
      _ = .ok (collected (before ++ [splitPair w] ++ words.map splitPair)) :=
          ih (before ++ [splitPair w]) fun v hv => h v (List.mem_cons_of_mem _ hv)
      _ = .ok (collected (before ++ (w :: words).map splitPair)) := by
          rw [List.append_assoc, List.singleton_append, List.map_cons]

/-- the first word that is no pair is the failure -/
theorem readPairs_error {pairs : Uri.Parameters} {before : List Text} {w : Text} (after : List Text)
    (hbefore : ∀ v ∈ before, IsPair v) (hw : ¬IsPair w) : readPairs pairs (before ++ w :: after) = .error w := by
  induction before generalizing pairs with
  | nil => exact readPairs_stop hw pairs after
  | cons v before ih =>
    rw [List.cons_append, readPairs_cons (hbefore v List.mem_cons_self)]
    exact ih fun u hu => hbefore u (List.mem_cons_of_mem _ hu)

/-! ## Commands and their router -/

/-- what a command does with its router; the pairs of a URI are read before there is one -/
def Command.next (a : Arguments) : Command → Except Text (Router → Report)
  | .listRoutes => .ok listing
  | .matchPath => .ok (matchingWords (a.word? 1) (a.word? 2))
  | .renderUrl => (readPairs [] (a.wordsAt 2)).map (rendering (a.wordAt 1))

theorem perform_error {c : Command} {a : Arguments} {w : Text} (h : c.next a = .error w) (modules : List Module) :
    perform modules a c = .complaint ("expected key=value, got ".toList ++ w.quoted) 2 := by
  cases c with
  | renderUrl =>
    have hpairs : readPairs [] (a.wordsAt 2) = .error w := Results.map_eq_error_iff.1 h
    simp only [perform, hpairs]
  | listRoutes => cases h
  | matchPath => cases h

theorem perform_ok {c : Command} {a : Arguments} {next : Router → Report} (h : c.next a = .ok next)
    (modules : List Module) : perform modules a c = withRouter modules (a.wordAt 0) next := by
  cases c with
  | renderUrl =>
    obtain ⟨parameters, hpairs, rfl⟩ := Results.map_eq_ok_iff.1 h
    simp only [perform, hpairs]
  | listRoutes =>
    obtain rfl := Except.ok.inj h
    rfl
  | matchPath =>
    obtain rfl := Except.ok.inj h
    rfl

/-- pairs are the only arguments that a command looks at before it asks for its router -/
theorem exists_next {c : Command} {a : Arguments} (h : c = .renderUrl → ∀ w ∈ a.wordsAt 2, IsPair w) :
    ∃ next, c.next a = .ok next := by
  cases c with
  | renderUrl =>
    refine ⟨rendering (a.wordAt 1) (collected ((a.wordsAt 2).map splitPair)), ?_⟩
    exact Results.map_eq_ok_iff.2 ⟨_, readPairs_collected [] (h rfl), rfl⟩
  | listRoutes => exact ⟨_, rfl⟩
  | matchPath => exact ⟨_, rfl⟩

/-! ## Rendering -/

theorem rendering_ok {template uri : Text} {parameters : Uri.Parameters} {r : Router}
    (h : r.uriFor template parameters = .ok uri) : rendering template parameters r = .printing (uri ++ ['\n']) := by
  rw [rendering, h]

theorem rendering_error {template : Text} {parameters : Uri.Parameters} {r : Router} {e : Error}
    (h : r.uriFor template parameters = .error e) (he : e.isRouting = true) :
    rendering template parameters r = .complaint e.message 1 := by
  rw [rendering, h]
  exact if_pos he

/-- the line that asks for a URI -/
def urlLine (target template : Text) (pairs : List Text) : List Text := "url".toList :: target :: template :: pairs

/-- **A URI from the command line**, for words that no dash starts. The first word that is no pair is quoted, and no module is
looked at; else the URI is rendered from the router with each key once, where it is first given, and its last value. -/
theorem url_renders {target template : Text} {pairs : List Text}
    (hplain : ∀ w ∈ target :: template :: pairs, IsPlainWord w) :
    (∀ before w after, pairs = before ++ w :: after → (∀ v ∈ before, IsPair v) → ¬IsPair w → ∀ modules,
      let (shown, report) := run modules (urlLine target template pairs)
      shown = false ∧ report.ending = .exit 2 ∧ report.output = [] ∧
      report.errors shown = "Error: expected key=value, got ".toList ++ w.quoted ++ ['\n'] ∧
      ∀ others, run others (urlLine target template pairs) = (shown, report)) ∧
    ((∀ w ∈ pairs, IsPair w) → ∀ modules r, Obtains modules target r →
      let (shown, report) := run modules (urlLine target template pairs)
      let parameters := collected (pairs.map splitPair)
      shown = false ∧
      (∀ uri, r.uriFor template parameters = .ok uri →
        report.ending = .exit 0 ∧ report.output = uri ++ ['\n'] ∧ report.errors shown = []) ∧
      ∀ e, r.uriFor template parameters = .error e → e.isRouting = true →
        report.ending = .exit 1 ∧ report.output = [] ∧ report.errors shown = "Error: ".toList ++ e.message ++ ['\n']) := by
  have hasks : Asks .renderUrl (target :: template :: pairs) ⟨[], [[target], [template], pairs], []⟩ :=
    asks_words (.renderUrl target template pairs) hplain
  have hrun : ∀ modules, run modules (urlLine target template pairs) =
      (false, perform modules ⟨[], [[target], [template], pairs], []⟩ .renderUrl) :=
    fun modules => (run_of_asks hasks modules).1
  refine ⟨?_, ?_⟩
  · intro before w after hsplit hbefore hw modules
    have hnext : Command.next ⟨[], [[target], [template], pairs], []⟩ .renderUrl = .error w := by
      refine Results.map_eq_error_iff.2 ?_
      show readPairs [] pairs = .error w
      rw [hsplit, readPairs_error after hbefore hw]
    have hreport : ∀ modules, run modules (urlLine target template pairs) =
        (false, .complaint ("expected key=value, got ".toList ++ w.quoted) 2) := by
      intro modules
      rw [hrun, perform_error hnext]
    rw [hreport]
    refine ⟨rfl, rfl, rfl, ?_, hreport⟩
    rw [Report.errors_complaint, List.append_assoc]
    rfl
  · intro hpairs modules r hr
    have hnext : Command.next ⟨[], [[target], [template], pairs], []⟩ .renderUrl =
        .ok (rendering template (collected (pairs.map splitPair))) :=
      Results.map_eq_ok_iff.2 ⟨_, readPairs_collected [] hpairs, rfl⟩
    have hreport : run modules (urlLine target template pairs) =
        (false, (rendering template (collected (pairs.map splitPair)) r).behind (resolve modules target).events) := by
      rw [hrun, perform_ok hnext]
      exact congrArg (Prod.mk false) (withRouter_of_obtains hr _)
    rw [hreport]
    refine ⟨rfl, ?_, ?_⟩
    · intro uri huri
      rw [rendering_ok huri]
      exact ⟨rfl, (Report.output_behind _ _).trans (Report.output_printing _), Report.errors_behind _ _⟩
    · intro e he hrouting
      rw [rendering_error he hrouting]
      exact ⟨rfl, Report.output_behind _ _, (Report.errors_behind _ _).trans (Report.errors_complaint _ _ _)⟩

/-- keys given twice, an empty value, and equals signs in a value, for a factory's router; and a line without it -/
theorem url_renders_repeated :
    let target := "app:make".toList
    let pairs := ["id=7".toList, "q=a=b".toList, "page=1".toList, "q=".toList, "id=8=9".toList]
    let r := Router.empty .standard
    let modules : List Module := [⟨"app".toList, [("make".toList, .factory (.ok (.router r)) [])]⟩]
    (∀ w ∈ target :: "/\x7bid\x7d".toList :: pairs, IsPlainWord w) ∧ (∀ w ∈ pairs, IsPair w) ∧ Obtains modules target r ∧
      (run modules (urlLine target "/\x7bid\x7d".toList pairs)).2.output = "/8=9?q=&page=1\n".toList ∧
      (run modules (urlLine target "/\x7bid\x7d".toList ("a=1".toList :: "=b".toList :: pairs))).2.ending = .exit 2 := by
  intro target pairs r modules
  have hplain : ∀ w ∈ target :: "/\x7bid\x7d".toList :: pairs, IsPlainWord w := by decide
  have hpairs : ∀ w ∈ pairs, IsPair w := by decide
  have hr : Obtains modules target r := ⟨_, ⟨_, rfl, rfl⟩, .router rfl⟩
  have huri : r.uriFor "/\x7bid\x7d".toList (collected (pairs.map splitPair)) = .ok "/8=9?q=&page=1".toList := by
    decide +kernel
  refine ⟨hplain, hpairs, hr, ?_, ?_⟩
  · exact (((url_renders hplain).2 hpairs modules r hr).2.1 _ huri).2.1
  · have hplain' : ∀ w ∈ target :: "/\x7bid\x7d".toList :: "a=1".toList :: "=b".toList :: pairs, IsPlainWord w := by decide
    exact ((url_renders hplain').1 ["a=1".toList] "=b".toList pairs rfl (by decide) (by decide) modules).2.1

end UriRouting.CommandLine
