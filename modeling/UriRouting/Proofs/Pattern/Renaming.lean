/-
Placeholders renamed. The expression of a template numbers its groups by the placeholders in front, and what a path gives to
them is looked up by number; the names only say under which key a value is told. So two templates that are one but for the names
of their placeholders, all different within each, are accepted alike and match alike, whatever the names are.

Results:
- `assemble_renames`: the expression assembled does not tell the names.
- `parameters?_eq_values`: the parameters are the values of the placeholders by position, put under their names.
- `names_invisible`: both, for templates and paths.
-/
import UriRouting.Proofs.Pattern.Failing

namespace UriRouting

open Results

namespace Template

/-- the other token is the same but for the name of a placeholder -/
inductive Token.Renames : Token → Token → Prop
  | literal (t : Text) : Renames (.literal t) (.literal t)
  | parameter (n m : Text) (constraint : Option Text) : Renames (.parameter n constraint) (.parameter m constraint)

theorem length_names_of_renames {ss ts : List Token} (h : List.Forall₂ Token.Renames ss ts) :
    (names ss).length = (names ts).length := by
  induction h with
  | nil => rfl
  | cons hrenames _ ih =>
    cases hrenames with
    | literal t => exact ih
    | parameter n m constraint => exact congrArg (· + 1) ih

end Template

namespace Pattern

open Regex Template

/-! ## The expression -/

/-- what is assembled for a placeholder of a new name -/
theorem assemble_parameter {config : Config} {seen : List Text} {name : Text} (hname : name ∉ seen)
    (constraint : Option Text) (tokens : List Token) : assemble config seen (.parameter name constraint :: tokens) =
      (body config constraint).bind fun b => (assemble config (seen ++ [name]) tokens).map (group seen.length b ++ ·) := by
  rw [assemble, if_neg hname]
  cases body config constraint <;> rfl

/-- **The expression does not tell the names** of its placeholders, as long as they are new -/
theorem assemble_renames {config : Config} {ss ts : List Token} (h : List.Forall₂ Token.Renames ss ts)
    {seen seen' : List Text} (hlength : seen.length = seen'.length) (hs : (seen ++ Template.names ss).Nodup)
    (ht : (seen' ++ Template.names ts).Nodup) : assemble config seen ss = assemble config seen' ts := by
  induction h generalizing seen seen' with
  | nil => rfl
  | @cons _ _ ss ts hrenames _ ih =>
    cases hrenames with
    | literal t => rw [assemble, assemble, ih hlength hs ht]
    | parameter n m constraint =>
      have hsplit : ∀ (seen : List Text) (name : Text) (tokens : List Token),
          seen ++ Template.names (.parameter name constraint :: tokens) = seen ++ [name] ++ Template.names tokens := by
        intro seen name tokens
        rw [List.append_assoc]
        rfl
      rw [hsplit] at hs ht
      have hnew : ∀ {seen : List Text} {name : Text} {tokens : List Token},
          (seen ++ [name] ++ Template.names tokens).Nodup → name ∉ seen := by
        intro seen name tokens hnodup hmem
        exact (List.nodup_append.1 hnodup.of_append_left).2.2 name hmem name (List.mem_singleton_self name) rfl
      rw [assemble_parameter (hnew hs), assemble_parameter (hnew ht), hlength, ih (by simp [hlength]) hs ht]

/-! ## The values -/

/-- what the captures give to so many placeholders from an index on: to each its text, if it took part -/
def valuesFrom (program : Program) (captures : Captures) : ℕ → ℕ → Except Error (List (Option Text))
  | _, 0 => .ok []
  | index, count + 1 =>
    match program.names.lookup (groupName index) with
    | none => .error .missingGroup
    | some n => (valuesFrom program captures (index + 1) count).map (captures.text? n :: ·)

/-- the values of those that took part, each under its name -/
def underNames : List Text → List (Option Text) → List (Text × Text)
  | name :: names, some v :: values => (name, v) :: underNames names values
  | _ :: names, none :: values => underNames names values
  | _, _ => []

theorem length_of_valuesFrom {program : Program} {captures : Captures} {index count : ℕ} {values : List (Option Text)}
    (h : valuesFrom program captures index count = .ok values) : values.length = count := by
  induction count generalizing index values with
  | zero =>
    obtain rfl := Except.ok.inj h
    rfl
  | succ count ih =>
    rw [valuesFrom] at h
    split at h
    · cases h
    · obtain ⟨more, hmore, rfl⟩ := map_eq_ok_iff.1 h
      rw [List.length_cons, ih hmore]

/-- **The parameters are the values by position**, put under the names -/
theorem collect_eq_valuesFrom (program : Program) (captures : Captures) (index : ℕ) (names : List Text) :
    collect program captures index names = (valuesFrom program captures index names.length).map (underNames names) := by
  induction names generalizing index with
  | nil => rfl
  | cons name names ih =>
    rw [collect, List.length_cons, valuesFrom]
    cases program.names.lookup (groupName index) with
    | none => rfl
    | some n =>
      simp only [ih]
      cases valuesFrom program captures (index + 1) names.length with
      | error e => rfl
      | ok values =>
        cases captures.text? n with
        | none => rfl
        | some v => rfl

/-- the answer for a path by position: what each of so many placeholders took, if the path matches -/
def values (program : Program) (count : ℕ) (path : Text) : Except Error (Option (List (Option Text))) :=
  match program.fullMatch path with
  | none => .ok none
  | some captures => (valuesFrom program captures 0 count).map some

theorem length_of_values {program : Program} {count : ℕ} {path : Text} {found : List (Option Text)}
    (h : values program count path = .ok (some found)) : found.length = count := by
  rw [values] at h
  split at h
  · cases h
  · obtain ⟨more, hmore, hfound⟩ := map_eq_ok_iff.1 h
    exact Option.some.inj hfound ▸ length_of_valuesFrom hmore

theorem parameters?_eq_values (p : Pattern) (path : Text) :
    p.parameters? path = (values p.program p.names.length path).map (Option.map (underNames p.names)) := by
  rw [parameters?, values]
  cases p.program.fullMatch path with
  | none => rfl
  | some captures =>
    simp only [collect_eq_valuesFrom]
    cases valuesFrom p.program captures 0 p.names.length <;> rfl

/-! ## Templates -/

/-- **Names are invisible to matching.** Two templates whose tokens are the same but for the names of placeholders, all
different within each, are accepted alike. Their expressions are the same, and for every path they give one answer: no match,
the same failure, or the same values at the same places, each template's under its own names. -/
theorem names_invisible {config : Config} {s t : Text} {ss ts : List Token} (hs : tokenize s = .ok ss)
    (ht : tokenize t = .ok ts) (h : List.Forall₂ Token.Renames ss ts) (hss : (Template.names ss).Nodup)
    (hts : (Template.names ts).Nodup) :
    ((∃ p, compile config s = .ok p) ↔ ∃ q, compile config t = .ok q) ∧
    ∀ p q, compile config s = .ok p → compile config t = .ok q → p.expression = q.expression ∧
      ∀ path, ∃ result : Except Error (Option (List (Option Text))),
        (∀ found, result = .ok (some found) → found.length = (Template.names ss).length) ∧
        p.parameters? path = result.map (Option.map (underNames (Template.names ss))) ∧
        q.parameters? path = result.map (Option.map (underNames (Template.names ts))) := by
  have hassemble : assemble config [] ss = assemble config [] ts := assemble_renames h rfl hss hts
  obtain ⟨haccepted, hcompiled⟩ := compile_of_assemble_eq hs ht hassemble rfl
  refine ⟨haccepted, fun p q hp hq => ?_⟩
  obtain ⟨hexpression, hprogram, hpnames, hqnames⟩ := hcompiled p q hp hq
  refine ⟨hexpression, fun path => ⟨values p.program (Template.names ss).length path, fun _ => length_of_values, ?_, ?_⟩⟩
  · rw [parameters?_eq_values, hpnames]
  · rw [parameters?_eq_values, hqnames, hprogram, length_names_of_renames h]

/-- names with digits, braces and the signs of an expression, and a placeholder that takes no part -/
theorem names_invisible_signs :
    let s := "(?:/\x7bclass: :alpha:+\x7d|/\x7bx-1\x7d)\x7b1\x7d".toList
    let t := "(?:/\x7b.*\x7b2\x7d|(: :alpha:+\x7d|/\x7b3a\x7d)\x7b1\x7d".toList
    let tokens : Text → Text → List Token := fun n m => [.literal "(?:/".toList, .parameter n (some ":alpha:+".toList),
      .literal "|/".toList, .parameter m none, .literal ")\x7b1\x7d".toList]
    let ss := tokens "class".toList "x-1".toList
    let ts := tokens ".*\x7b2\x7d|(".toList "3a".toList
    ∃ p q, compile .standard s = .ok p ∧ compile .standard t = .ok q ∧ p.expression = q.expression ∧
      p.parameters? "/7".toList = .ok (some [("x-1".toList, ['7'])]) ∧
      q.parameters? "/7".toList = .ok (some [("3a".toList, ['7'])]) ∧
      ∀ path, ∃ result : Except Error (Option (List (Option Text))),
        (∀ found, result = .ok (some found) → found.length = (Template.names ss).length) ∧
        p.parameters? path = result.map (Option.map (underNames (Template.names ss))) ∧
        q.parameters? path = result.map (Option.map (underNames (Template.names ts))) := by
  intro s t tokens ss ts
  have hfirst : answer .standard s "/7".toList = .ok (some [("x-1".toList, ['7'])]) := by
    rw [answer_eq_find?]
    decide +kernel
  have hsecond : answer .standard t "/7".toList = .ok (some [("3a".toList, ['7'])]) := by
    rw [answer_eq_find?]
    decide +kernel
  obtain ⟨p, hp⟩ := exists_of_isOk (r := compile .standard s) (by decide +kernel)
  obtain ⟨q, hq⟩ := exists_of_isOk (r := compile .standard t) (by decide +kernel)
  rw [answer, hp] at hfirst
  rw [answer, hq] at hsecond
  have hs : tokenize s = .ok ss := by decide +kernel
  have ht : tokenize t = .ok ts := by decide +kernel
  have hrenames : List.Forall₂ Token.Renames ss ts :=
    .cons (.literal _) (.cons (.parameter _ _ _) (.cons (.literal _) (.cons (.parameter _ _ _) (.cons (.literal _) .nil))))
  obtain ⟨hexpression, hpaths⟩ := (names_invisible hs ht hrenames (by decide) (by decide)).2 p q hp hq
  exact ⟨p, q, hp, hq, hexpression, hfirst, hsecond, hpaths⟩

end Pattern

end UriRouting
