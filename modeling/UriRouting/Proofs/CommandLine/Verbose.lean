/-
Log records shown. What a line logs does not depend on whether it is shown: nothing as long as its words are read; then what a
factory logs, then one record for each route of a group that is loaded, and last the record of a request for which nothing is
found (`Logged`). The switch in front of a command puts these records before what the run writes to the error stream anyway.

- `errors_next`: what a command logs once it has its router.
- `verbose_adds_records`: a run with the switch against the run without it.
-/
import UriRouting.Proofs.CommandLine.Pairs
import UriRouting.Proofs.Router.OneByOne

namespace UriRouting.CommandLine

open Router

/-! ## What a line logs -/

/-- the record of a request for which nothing is found -/
def Command.missed? (a : Arguments) (r : Router) : Command → Option Event
  | .matchPath =>
    match a.word? 1, a.word? 2 with
    | some method, some path =>
      match (r.find path method).answer with
      | .ok [] => some (.unmatched method (r.strip path))
      | _ => none
    | some method, none => if r.mount.isEmpty && (r.routesFor (some method)).isEmpty then some (.untried method) else none
    | none, _ => none
  | _ => none

inductive Logged (modules : List Module) (c : Command) (words : List Text) : List Event → Prop
  | unread (h : ∀ a, ¬Asks c words a) : Logged modules c words []
  | unpaired {a : Arguments} {w : Text} (h : Asks c words a) (hw : c.next a = .error w) : Logged modules c words []
  | lost {a : Arguments} {next : Router → Report} {events : List Event} (h : Asks c words a) (hnext : c.next a = .ok next)
    (hevents : Fetching modules (a.wordAt 0) events) (hnone : ∀ r, ¬Obtains modules (a.wordAt 0) r) :
    Logged modules c words events
  | found {a : Arguments} {next : Router → Report} {events : List Event} {r : Router} (h : Asks c words a)
    (hnext : c.next a = .ok next) (hevents : Fetching modules (a.wordAt 0) events) (hr : Obtains modules (a.wordAt 0) r) :
    Logged modules c words (events ++ (c.missed? a r).toList)

/-! ## Records among what is written -/

theorem errors_stopped (shown : Bool) (g : Grammar) (about : Text) (stop : Stop) :
    (stopped g about stop).errors shown = (stopped g about stop).errors false := by
  cases stop <;> rfl

theorem errors_matching (method path : Text) (r : Router) : (matching method path r).errors true =
    (r.find path method).events.flatMap logLine ++ (matching method path r).errors false := by
  rw [matching, Report.errors_behind_verbose, Report.errors_behind]
  congr 1
  cases (r.find path method).answer with
  | error e => rfl
  | ok found => cases found <;> rfl

theorem errors_matchingWords (a : Arguments) (r : Router) :
    (matchingWords (a.word? 1) (a.word? 2) r).errors true =
      (Command.matchPath.missed? a r).toList.flatMap logLine ++ (matchingWords (a.word? 1) (a.word? 2) r).errors false := by
  simp only [Command.missed?]
  cases a.word? 1 with
  | none =>
    cases a.word? 2 with
    | none =>
      simp only [matchingWords]
      split <;> rfl
    | some path => rfl
  | some method =>
    cases a.word? 2 with
    | none =>
      simp only [matchingWords]
      cases r.mount.isEmpty with
      | false => rfl
      | true =>
        cases (r.routesFor (some method)).isEmpty with
        | false => rfl
        | true => exact Report.errors_behind_verbose [.untried method] (noMatch method "[]".toList)
    | some path =>
      simp only [matchingWords, errors_matching, Router.find]
      congr 1
      cases r.lookup path method with
      | error e => rfl
      | ok found => cases found <;> simp

/-- **A command with its router** logs a request for which nothing is found, and that is all -/
theorem errors_next {c : Command} {a : Arguments} {next : Router → Report} (h : c.next a = .ok next) (r : Router) :
    (next r).errors true = (c.missed? a r).toList.flatMap logLine ++ (next r).errors false := by
  cases c with
  | listRoutes =>
    obtain rfl := Except.ok.inj h
    rfl
  | matchPath =>
    obtain rfl := Except.ok.inj h
    exact errors_matchingWords a r
  | renderUrl =>
    obtain ⟨parameters, -, rfl⟩ := Results.map_eq_ok_iff.1 h
    show (rendering _ parameters r).errors true = (rendering _ parameters r).errors false
    simp only [rendering, routerError]
    split
    · rfl
    · split <;> rfl

/-- what a command writes when it is run has its records in front -/
theorem errors_perform (modules : List Module) {c : Command} {words : List Text} {a : Arguments} (h : Asks c words a) :
    ∃ records, Logged modules c words records ∧
      (perform modules a c).errors true = records.flatMap logLine ++ (perform modules a c).errors false := by
  let events := (resolve modules (a.wordAt 0)).events
  cases hnext : c.next a with
  | error w =>
    refine ⟨[], .unpaired h hnext, ?_⟩
    rw [perform_error hnext]
    rfl
  | ok next =>
    have hevents : Fetching modules (a.wordAt 0) events := fetching_events modules (a.wordAt 0)
    rw [perform_ok hnext]
    by_cases hfound : ∃ r, Obtains modules (a.wordAt 0) r
    · obtain ⟨r, hr⟩ := hfound
      refine ⟨events ++ (c.missed? a r).toList, .found h hnext hevents hr, ?_⟩
      rw [withRouter_of_obtains hr, Report.errors_behind_verbose, Report.errors_behind, errors_next hnext,
        List.flatMap_append, List.append_assoc]
    · have hnone := not_exists.1 hfound
      obtain ⟨f, hf⟩ := exists_failure hnone
      refine ⟨events, .lost h hnext hevents hnone, ?_⟩
      rw [withRouter_of_failure hf, Report.errors_behind_verbose, Report.errors_behind]
      congr 1
      split <;> rfl

/-! ## The switch in front of a command -/

/-- **The switch adds log records and nothing else.** Whatever the modules and the words behind the command, the run ends as
without it and writes the same output, and its records stand before what goes to the error stream anyway. Routes are logged
one record each where they are registered, together or one by one, and none for those that are refused. -/
theorem verbose_adds_records (modules : List Module) (c : Command) (words : List Text) :
    (∃ records, Logged modules c words records ∧
      let (shown, quiet) := run modules (c.name :: words)
      let (shown', loud) := run modules ("-v".toList :: c.name :: words)
      loud.ending = quiet.ending ∧ loud.output = quiet.output ∧
        loud.errors shown' = records.flatMap logLine ++ quiet.errors shown) ∧
    ∀ r : Router, (∀ route, LogsAdded r (r.add route)) ∧ (∀ group, LogsAdded r (r.addGroup group)) ∧
      ∀ routes, LogsAdded r (r.addEach routes) := by
  refine ⟨?_, ?_⟩
  · by_cases hasks : ∃ a, Asks c words a
    · obtain ⟨a, ha⟩ := hasks
      obtain ⟨records, hrecords, herrors⟩ := errors_perform modules ha
      refine ⟨records, hrecords, ?_⟩
      obtain ⟨hquiet, hloud⟩ := run_of_asks ha modules
      rw [hquiet, show "-v".toList = verboseSwitch.short from rfl, hloud]
      exact ⟨rfl, rfl, herrors⟩
    · obtain ⟨g, about, stop, shown, hstop⟩ := run_of_not_asks (not_exists.1 hasks)
      refine ⟨[], .unread (not_exists.1 hasks), ?_⟩
      rw [(hstop modules).1, show "-v".toList = verboseSwitch.short from rfl, (hstop modules).2]
      exact ⟨rfl, rfl, errors_stopped shown g about stop⟩
  · intro r
    refine ⟨?_, ?_, ?_⟩
    · intro route
      exact logsAdded_addAll r [route]
    · intro group
      exact logsAdded_addAll r group.allRoutes
    · intro routes
      exact logsAdded_addEach r routes

/-- a group is loaded, and has no route for the method -/
example :
    let modules : List Module := [⟨"app".toList,
      [("g".toList, .group ⟨[], [⟨0, some Method.get, some "/a".toList, .function "h".toList, none⟩], []⟩)]⟩]
    let result := run modules ["-v".toList, "match".toList, "app:g".toList, "POST".toList, "/a".toList]
    result.2.errors result.1 = "perch.routing: Added route GET /a\nperch.routing: No route matches POST '/a'\n".toList ++
      "No route matches POST /a\n".toList := by
  decide +kernel

end UriRouting.CommandLine
