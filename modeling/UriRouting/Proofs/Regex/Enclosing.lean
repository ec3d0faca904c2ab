/-
A source enclosed in parentheses. `Machine.enclosed ε m` is the machine m that stands within parentheses opened before its
source: these are further out than all its own, and the groups among them are counted before its own, so every number of a
group is raised by as many. What m reads it reads there as well, as long as it closes only parentheses of its own and refers
to groups by names that nothing outside bears (`Enclosure.Keeps`).

- `spoken?`: the reference that an element speaks of, whether or not it becomes a back-reference.
- `step_enclosed`: one element read within the parentheses is that element read on its own, its groups raised.
-/
import Mathlib.Tactic
import UriRouting.Proofs.Results
import UriRouting.Regex.Parser

namespace UriRouting.Regex

/-! ## Raised numbers -/

def Expr.raise (k : ℕ) : Expr → Expr
  | empty => empty
  | char test => char test
  | anchor a => anchor a
  | cat a b => cat (a.raise k) (b.raise k)
  | alt a b => alt (a.raise k) (b.raise k)
  | group n e => group (n + k) (e.raise k)
  | backref r caseless => backref r caseless
  | repeated e r => repeated (e.raise k) r
  | atomic e => atomic (e.raise k)
  | look behind negated e => look behind negated (e.raise k)

def Sequence.raise (k : ℕ) (q : Sequence) : Sequence :=
  ⟨q.branches.map (.raise k), q.settled.map (.raise k), q.last.map (.raise k)⟩

def Opening.raise (k : ℕ) : Opening → Opening
  | capture n => capture (n + k)
  | plain => plain
  | atomic => atomic
  | look behind negated => look behind negated

def Frame.raise (k : ℕ) (f : Frame) : Frame := ⟨f.opening.raise k, f.flags, f.sequence.raise k⟩

variable {k : ℕ}

namespace Expr

@[simp] theorem references_raise (e : Expr) : (e.raise k).references = e.references := by
  induction e with
  | cat a b iha ihb => simp only [raise, references, iha, ihb]
  | alt a b iha ihb => simp only [raise, references, iha, ihb]
  | group n e ih => exact ih
  | repeated e r ih => exact ih
  | atomic e ih => exact ih
  | look behind negated e ih => exact ih
  | _ => rfl

theorem raise_ofSequence (es : List Expr) : (ofSequence es).raise k = ofSequence (es.map (.raise k)) := by
  fun_induction ofSequence es with
  | case1 => rfl
  | case2 e => rfl
  | case3 e f rest ih => simp only [raise, ih, List.map_cons, ofSequence]

theorem raise_ofBranches (es : List Expr) : (ofBranches es).raise k = ofBranches (es.map (.raise k)) := by
  fun_induction ofBranches es with
  | case1 => rfl
  | case2 e => rfl
  | case3 e f rest ih => simp only [raise, ih, List.map_cons, ofBranches]

/-- nothing is raised by nothing -/
theorem raise_zero (e : Expr) : e.raise 0 = e := by
  induction e with
  | cat a b iha ihb => rw [raise, iha, ihb]
  | alt a b iha ihb => rw [raise, iha, ihb]
  | group n e ih => rw [raise, ih, Nat.add_zero]
  | repeated e r ih => rw [raise, ih]
  | atomic e ih => rw [raise, ih]
  | look behind negated e ih => rw [raise, ih]
  | _ => rfl

end Expr

namespace Sequence

variable (q : Sequence)

@[simp] theorem raise_start : start.raise k = start := rfl

theorem elements_raise : (q.raise k).elements = q.elements.map (.raise k) := by
  cases h : q.last <;> simp [elements, raise, h]

@[simp] theorem raise_push (e : Expr) : (q.push e).raise k = (q.raise k).push (e.raise k) := by
  simp only [push, elements_raise]
  rfl

@[simp] theorem raise_nextBranch : q.nextBranch.raise k = (q.raise k).nextBranch := by
  simp only [nextBranch, elements_raise, ← List.map_reverse, ← Expr.raise_ofSequence]
  rfl

@[simp] theorem raise_close : q.close.raise k = (q.raise k).close := by
  rw [close, close, Expr.raise_ofBranches, ← raise_nextBranch, List.map_reverse]
  rfl

theorem raise_zero : q.raise 0 = q := by
  have hraise : Expr.raise 0 = id := funext Expr.raise_zero
  rw [raise, hraise, List.map_id, List.map_id, Option.map_id]
  rfl

end Sequence

theorem Opening.raise_close (o : Opening) (e : Expr) : (o.close e).raise k = (o.raise k).close (e.raise k) := by
  cases o <;> rfl

theorem raise_quantify (e : Expr) (limits : Limits) (greed : Greed) :
    (quantify e limits greed).raise k = quantify (e.raise k) limits greed := by
  unfold quantify
  split
  · rfl
  · cases greed <;> rfl

/-! ## References -/

namespace Machine

/-- the name that a group is given, as a reference -/
def named? (verbose : Bool) (s : Text) : Option Reference := (groupName verbose s).toOption.map fun x => .name x.1

/-- the reference that a parenthesis speaks of, read from behind it -/
def parenthesisSpoken? (m : Machine) (s : Text) : Option Reference :=
  match s with
  | '?' :: '<' :: rest =>
    match next? m.verbose rest with
    | some ('=', _) => none
    | some ('!', _) => none
    | _ => named? m.verbose rest
  | '?' :: 'P' :: rest =>
    match next? m.verbose rest with
    | some ('<', rest) => named? m.verbose rest
    | some ('=', rest) => (groupReference m.verbose rest).toOption.map Prod.fst
    | _ => none
  | _ => none

/-- the reference that an element speaks of, as a name of a group or as a back-reference, its first character read -/
def spoken? (m : Machine) (c : Char) (s : Text) : Option Reference :=
  match c, s with
  | '(', _ => m.parenthesisSpoken? s
  | '\\', 'g' :: rest => (Regex.angleReference m.verbose rest).toOption.map Prod.fst
  | '\\', _ =>
    match escape m.flags.octalWrap m.verbose false s with
    | .ok (.reference r, _) => some r
    | _ => none
  | _, _ => none

end Machine

/-! ## One element -/

/-- parentheses opened before a source, with the groups opened so far and the names given -/
structure Enclosure where
  groups : ℕ
  names : List (Text × ℕ)
  frames : List Frame
  /-- a group that is open outside was counted outside -/
  bounded : ∀ f ∈ frames, ∀ n, f.opening = .capture n → 1 ≤ n ∧ n ≤ groups

/-- the reference means the same group within as on its own -/
def Enclosure.Keeps (ε : Enclosure) : Reference → Prop
  | .number _ => ε.groups = 0
  | .name t => ε.names.lookup t = none

namespace Machine

/-- no name is given to what comes before the first group -/
def IsNumbered (m : Machine) : Prop := ∀ x ∈ m.names, 1 ≤ x.2

theorem one_le_of_lookup {names : List (Text × ℕ)} (hnames : ∀ x ∈ names, 1 ≤ x.2) {t : Text} {n : ℕ}
    (h : names.lookup t = some n) : 1 ≤ n := by
  obtain ⟨front, behind, hsplit, -⟩ := List.lookup_eq_some_iff.1 h
  exact hnames (t, n) (hsplit ▸ by simp)

def raiseNames (k : ℕ) (names : List (Text × ℕ)) : List (Text × ℕ) := names.map fun x => (x.1, x.2 + k)

def enclosed (ε : Enclosure) (m : Machine) : Machine where
  sequence := m.sequence.raise ε.groups
  frames := m.frames.map (.raise ε.groups) ++ ε.frames
  flags := m.flags
  groups := m.groups + ε.groups
  names := ε.names ++ raiseNames ε.groups m.names

def enclosing (ε : Enclosure) : Except Fault (Machine × Text) → Except Fault (Machine × Text) :=
  Except.map fun x => (x.1.enclosed ε, x.2)

variable (ε : Enclosure) (m : Machine)

@[simp] theorem flags_enclosed : (m.enclosed ε).flags = m.flags := rfl

@[simp] theorem verbose_enclosed : (m.enclosed ε).verbose = m.verbose := rfl

@[simp] theorem sequence_enclosed : (m.enclosed ε).sequence = m.sequence.raise ε.groups := rfl

theorem push_enclosed (e : Expr) : (m.enclosed ε).push (e.raise ε.groups) = (m.push e).enclosed ε := by
  simp only [push, enclosed, Sequence.raise_push]

@[simp] theorem pushChar_enclosed (n : ℕ) : (m.enclosed ε).pushChar n = (m.pushChar n).enclosed ε :=
  push_enclosed ε m (.char (.literal n m.flags.caseless))

@[simp] theorem enterGroup_enclosed : (m.enclosed ε).enterGroup = m.enterGroup.enclosed ε := by
  have hgroups : m.groups + ε.groups + 1 = m.groups + 1 + ε.groups := by omega
  simp only [enterGroup, enter, enclosed, hgroups]
  rfl

theorem lookup_raiseNames (k : ℕ) (names : List (Text × ℕ)) (t : Text) :
    (raiseNames k names).lookup t = (names.lookup t).map (· + k) := by
  induction names with
  | nil => rfl
  | cons x names ih =>
    obtain ⟨u, n⟩ := x
    simp only [raiseNames, List.map_cons, List.lookup_cons] at ih ⊢
    cases t == u with
    | true => rfl
    | false => exact ih

/-- a reference that is kept means the same group, its number raised -/
theorem resolve_enclosed {r : Reference} (hr : ε.Keeps r) (names : List (Text × ℕ)) :
    r.resolve (ε.names ++ raiseNames ε.groups names) = (r.resolve names).map (· + ε.groups) := by
  cases r with
  | number n =>
    have hgroups : ε.groups = 0 := hr
    simp only [Reference.resolve, hgroups, Option.map_some, Nat.add_zero]
  | name t =>
    have hnone : ε.names.lookup t = none := hr
    rw [Reference.resolve, Reference.resolve, List.lookup_append, hnone, Option.none_or, lookup_raiseNames]

theorem enterNamed_enclosed {name : Text} (hname : ε.Keeps (.name name)) :
    (m.enclosed ε).enterNamed name = (m.enterNamed name).enclosed ε := by
  have hlookup : (m.enclosed ε).names.lookup name = (m.names.lookup name).map (· + ε.groups) :=
    resolve_enclosed ε hname m.names
  have hgroups : m.groups + ε.groups + 1 = m.groups + 1 + ε.groups := by omega
  rw [enterNamed, enterNamed, hlookup]
  cases m.names.lookup name with
  | some n => rfl
  | none => simp [enter, enclosed, raiseNames, hgroups, Frame.raise, Opening.raise]

/-- a group is open within when it is open on its own: those open outside are not referred to -/
theorem isOpen_enclosed {r : Reference} (hr : ε.Keeps r) (hm : m.IsNumbered) : (m.enclosed ε).isOpen r = m.isOpen r := by
  have hresolve : r.resolve (m.enclosed ε).names = (r.resolve m.names).map (· + ε.groups) :=
    resolve_enclosed ε hr m.names
  rw [isOpen, isOpen, hresolve]
  cases hn : r.resolve m.names with
  | none => rfl
  | some n =>
    have houter : ε.frames.any (fun f => f.opening = .capture (n + ε.groups)) = false := by
      rw [List.any_eq_false]
      intro f hf
      simp only [decide_eq_true_eq]
      intro hopening
      obtain ⟨hpos, hle⟩ := ε.bounded f hf _ hopening
      cases r with
      | number _ =>
        have hgroups : ε.groups = 0 := hr
        omega
      | name t =>
        have hone : 1 ≤ n := one_le_of_lookup hm hn
        omega
    have hinner : ∀ f : Frame, decide ((f.raise ε.groups).opening = .capture (n + ε.groups)) =
        decide (f.opening = .capture n) := by
      intro f
      obtain ⟨o, flags, q⟩ := f
      cases o <;> simp [Frame.raise, Opening.raise]
    simp only [enclosed, Option.map_some, List.any_append, houter, Bool.or_false, List.any_map, Function.comp_def, hinner]

theorem pushReference_enclosed {r : Reference} (hr : ε.Keeps r) (hm : m.IsNumbered) :
    (m.enclosed ε).pushReference r = (m.pushReference r).map (enclosed ε) := by
  rw [pushReference, pushReference, isOpen_enclosed ε m hr hm]
  split
  · rfl
  · exact congrArg Except.ok (push_enclosed ε m (.backref r m.flags.caseless))

theorem pushEscaped_enclosed {e : Escaped} (he : ∀ r, e = .reference r → ε.Keeps r) (hm : m.IsNumbered) :
    (m.enclosed ε).pushEscaped e = (m.pushEscaped e).map (enclosed ε) := by
  cases e with
  | code n => exact congrArg Except.ok (pushChar_enclosed ε m n)
  | item i => exact congrArg Except.ok (push_enclosed ε m (.char (.ofItems [i] false m.flags.caseless)))
  | anchor a => exact congrArg Except.ok (push_enclosed ε m (.anchor a))
  | reference r => exact pushReference_enclosed ε m (he r rfl) hm

@[simp] theorem repeatLast_enclosed (limits : Limits) (s : Text) :
    (m.enclosed ε).repeatLast limits s = enclosing ε (m.repeatLast limits s) := by
  rw [repeatLast, repeatLast]
  cases hlast : m.sequence.last with
  | none =>
    simp only [sequence_enclosed, Sequence.raise, hlast, Option.map_none]
    rfl
  | some e =>
    simp only [sequence_enclosed, Sequence.raise, hlast, Option.map_some, ← raise_quantify]
    rfl

@[simp] theorem flagGroup_enclosed (s : Text) : (m.enclosed ε).flagGroup s = enclosing ε (m.flagGroup s) := by
  simp only [flagGroup, verbose_enclosed, flags_enclosed]
  split
  · rfl
  · split <;> rfl

theorem namedGroup_enclosed {s : Text} (h : ∀ r ∈ named? m.verbose s, ε.Keeps r) :
    (m.enclosed ε).namedGroup s = enclosing ε (m.namedGroup s) := by
  rw [namedGroup, namedGroup, verbose_enclosed]
  cases hname : groupName m.verbose s with
  | error f => rfl
  | ok x =>
    have hkeep : ε.Keeps (.name x.1) := by
      apply h
      rw [named?, hname]
      rfl
    simp only
    cases accept? m.verbose '>' x.2 with
    | none => rfl
    | some rest =>
      simp only [enterNamed_enclosed ε m hkeep]
      rfl

theorem namedReference_enclosed {s : Text} (h : ∀ r ∈ (groupReference m.verbose s).toOption.map Prod.fst, ε.Keeps r)
    (hm : m.IsNumbered) : (m.enclosed ε).namedReference s = enclosing ε (m.namedReference s) := by
  rw [namedReference, namedReference, verbose_enclosed]
  cases hreference : groupReference m.verbose s with
  | error f => rfl
  | ok x =>
    have hkeep : ε.Keeps x.1 := h x.1 (by rw [hreference]; rfl)
    simp only
    cases accept? m.verbose ')' x.2 with
    | none => rfl
    | some rest =>
      simp only [pushReference_enclosed ε m hkeep hm]
      cases m.pushReference x.1 <;> rfl

theorem angleReference_enclosed {s : Text}
    (h : ∀ r ∈ (Regex.angleReference m.verbose s).toOption.map Prod.fst, ε.Keeps r) (hm : m.IsNumbered) :
    (m.enclosed ε).angleReference s = enclosing ε (m.angleReference s) := by
  rw [angleReference, angleReference, verbose_enclosed]
  cases hreference : Regex.angleReference m.verbose s with
  | error f =>
    simp only [pushChar_enclosed]
    split
    · exact nomatch ‹Except.error _ = Except.ok _›
    · rfl
    · rfl
  | ok x =>
    have hkeep : ε.Keeps x.1 := h x.1 (by rw [hreference]; rfl)
    simp only [isOpen_enclosed ε m hkeep hm, pushChar_enclosed]
    split
    · rfl
    · exact congrArg (fun n => Except.ok (n, x.2)) (push_enclosed ε m (.backref x.1 m.flags.caseless))

theorem parenthesis_enclosed {s : Text} (h : ∀ r ∈ m.parenthesisSpoken? s, ε.Keeps r) (hm : m.IsNumbered) :
    (m.enclosed ε).parenthesis s = enclosing ε (m.parenthesis s) := by
  unfold parenthesis
  unfold parenthesisSpoken? at h
  simp only [verbose_enclosed, enterGroup_enclosed]
  split
  · simp only at h
    split
    · rfl
    · rfl
    · rename_i h1 h2
      split at h
      · exact absurd ‹_› (h1 _)
      · exact absurd ‹_› (h2 _)
      · exact namedGroup_enclosed ε m h
  · rfl
  · rfl
  · rfl
  · split <;> rfl
  · simp only at h
    split
    · rename_i hnext
      rw [hnext] at h
      exact namedGroup_enclosed ε m h
    · rename_i hnext
      rw [hnext] at h
      exact namedReference_enclosed ε m h hm
    · rfl
  · exact flagGroup_enclosed ε m _
  · split <;> rfl
  · rfl

theorem leave_enclosed (h : m.frames ≠ []) : (m.enclosed ε).leave = m.leave.map (enclosed ε) := by
  obtain ⟨q, frames, flags, groups, names⟩ := m
  cases frames with
  | nil => exact absurd rfl h
  | cons f fs =>
    simp only [leave, enclosed, List.map_cons, List.cons_append, Except.map, Sequence.raise_push, Opening.raise_close,
      Sequence.raise_close]
    rfl

/-- **One element read within parentheses is the element read on its own**, where it closes only what was opened within and
speaks of what means the same within -/
theorem step_enclosed {c : Char} {s : Text} (hclose : c = ')' → m.frames ≠ []) (h : ∀ r ∈ m.spoken? c s, ε.Keeps r)
    (hm : m.IsNumbered) : (m.enclosed ε).step c s = enclosing ε (m.step c s) := by
  unfold step
  unfold spoken? at h
  split
  · simp only [enclosed, ← Sequence.raise_nextBranch]
    rfl
  · rw [leave_enclosed ε m (hclose rfl)]
    cases m.leave <;> rfl
  · exact parenthesis_enclosed ε m h hm
  · exact angleReference_enclosed ε m h hm
  · simp only [flags_enclosed, verbose_enclosed] at h ⊢
    rcases hescape : escape m.flags.octalWrap m.verbose false s with f | ⟨e, rest⟩
    · rfl
    · have he : ∀ r, e = .reference r → ε.Keeps r := by
        rintro r rfl
        exact h r (by rw [hescape]; rfl)
      simp only [pushEscaped_enclosed ε m he hm]
      cases m.pushEscaped e <;> rfl
  · exact congrArg (fun n => Except.ok (n, s)) (push_enclosed ε m (.char (.any (m.flags.contains .dotAll))))
  · simp only [flags_enclosed]
    rcases set m.flags.caseless s with f | ⟨t, rest⟩
    · rfl
    · exact congrArg (fun n => Except.ok (n, rest)) (push_enclosed ε m (.char t))
  · exact congrArg (fun n => Except.ok (n, s)) (push_enclosed ε m (.anchor _))
  · exact congrArg (fun n => Except.ok (n, s)) (push_enclosed ε m (.anchor _))
  · exact repeatLast_enclosed ε m _ _
  · exact repeatLast_enclosed ε m _ _
  · exact repeatLast_enclosed ε m _ _
  · simp only [verbose_enclosed, pushChar_enclosed, repeatLast_enclosed]
    split
    · rfl
    · cases checkTolerance m.verbose s <;> rfl
    · rfl
  · simp only [pushChar_enclosed]
    rfl

end Machine

end UriRouting.Regex
