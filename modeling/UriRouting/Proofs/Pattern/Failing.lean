/-
When matching fails. The literal text of a template is source like any other, so a placeholder may end up in a set or a
comment, where its parenthesis opens no group. Such a template compiles. A path that its expression does not match is told
from one that it does, but the parameters of a match cannot be read off.

Results:
- `parameters?_eq_find?`: the answer for a path, read off the outcomes of the expression.
- `parameters?_error_iff`: the failure, told exactly: a match, and a placeholder that is no group.
- `hasGroups_of_simple`: a simple template has all of its groups.
-/
import UriRouting.Proofs.Pattern.Parameters

namespace UriRouting.Pattern

open Regex Template Results

/-- **The answer for a path**: the first outcome that has come to its end gives the parameters -/
theorem parameters?_eq_find? (p : Pattern) (path : Text) : p.parameters? path =
    (((p.program.outcomes p.program.root .forward (.start path)).find? (·.after.isEmpty)).map State.captures).elim
      (.ok none) fun captures => (collect p.program captures 0 p.names).map some := by
  rw [parameters?, Program.fullMatch_eq_find?]
  generalize Option.map State.captures _ = captures
  cases captures <;> rfl

def answer (config : Config) (template path : Text) : Except Error (Option (List (Text × Text))) :=
  (compile config template).bind (·.parameters? path)

theorem answer_eq_find? (config : Config) (template path : Text) : answer config template path =
    (compile config template).bind fun p =>
      (((p.program.outcomes p.program.root .forward (.start path)).find? (·.after.isEmpty)).map State.captures).elim
        (.ok none) fun captures => (collect p.program captures 0 p.names).map some := by
  simp only [answer, parameters?_eq_find?]

/-- every placeholder is a group of the expression -/
def HasGroups (p : Pattern) : Prop := ∀ i < p.names.length, (p.program.names.lookup (groupName i)).isSome = true

instance (p : Pattern) : Decidable p.HasGroups := inferInstanceAs (Decidable (∀ i < p.names.length, _))

theorem collect_error_iff {program : Program} {captures : Captures} {index : ℕ} {names : List Text} {e : Error} :
    collect program captures index names = .error e ↔
      e = .missingGroup ∧ ∃ i < names.length, program.names.lookup (groupName (index + i)) = none := by
  induction names generalizing index with
  | nil => simp [collect]
  | cons name names ih =>
    -- the first name has the group of the index, and the others those behind it
    have hsplit : (∃ i < (name :: names).length, program.names.lookup (groupName (index + i)) = none) ↔
        program.names.lookup (groupName index) = none ∨
          ∃ i < names.length, program.names.lookup (groupName (index + 1 + i)) = none := by
      rw [List.length_cons, Nat.exists_lt_succ_left]
      simp only [Nat.add_zero, Nat.add_assoc, Nat.add_comm 1]
    rw [hsplit, collect]
    cases hlookup : program.names.lookup (groupName index) with
    | none => simp [eq_comm]
    | some n => simp only [map_eq_error_iff, ih, reduceCtorEq, false_or]

/-- **Matching fails only for a placeholder that is no group**, and then for every path that the expression matches -/
theorem parameters?_error_iff {p : Pattern} {path : Text} {e : Error} : p.parameters? path = .error e ↔
    e = .missingGroup ∧ (p.program.fullMatch path).isSome = true ∧ ¬p.HasGroups := by
  have hgroups : ¬p.HasGroups ↔ ∃ i < p.names.length, p.program.names.lookup (groupName (0 + i)) = none := by
    simp only [HasGroups, not_forall, exists_prop, Nat.zero_add, Bool.not_eq_true, Option.isSome_eq_false_iff,
      Option.isNone_iff_eq_none]
  rw [parameters?, hgroups]
  cases p.program.fullMatch path with
  | none => simp
  | some captures =>
    simp only [map_eq_error_iff, collect_error_iff]
    simp

theorem hasGroups_of_simple {config : Config} (hbare : config.bareConstraint = Config.standard.bareConstraint)
    {template : Text} {tokens : List Token} (htokens : tokenize template = .ok tokens)
    (hsimple : ∀ t ∈ tokens, t.IsSimple) {p : Pattern} (hp : compile config template = .ok p) : p.HasGroups := by
  obtain ⟨hprogram, hnames, -⟩ := program_of_compile hbare htokens hsimple hp
  intro i hi
  rw [hprogram, simpleProgram, lookup_groups, ← hnames, if_pos hi]
  rfl

end UriRouting.Pattern
