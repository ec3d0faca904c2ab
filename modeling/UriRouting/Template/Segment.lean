/-
Segments of a template: what a scan from left to right takes in at a time. A backslash takes its next character with
it; an opening brace takes everything up to the brace that balances it, escape pairs skipped; every other character
stands alone. An opening brace that nothing balances takes the whole rest and ends the scan.

`segments_text`: nothing is lost, the texts of the segments in order are the template.
-/
import UriRouting.Text.Basic

namespace UriRouting.Template

inductive Segment where
  /-- a backslash and the character after it -/
  | escape (c : Char)
  /-- one character: no opening brace, and a backslash only at the very end -/
  | plain (c : Char)
  /-- the text between an opening brace and the brace that balances it -/
  | braces (inner : Text)
  /-- an opening brace that nothing balances, with all that follows it -/
  | unclosed (rest : Text)
deriving DecidableEq, Repr

def Segment.text : Segment → Text
  | escape c => ['\\', c]
  | plain c => [c]
  | braces inner => '{' :: inner ++ ['}']
  | unclosed rest => '{' :: rest

/-- how many characters lie between the place after an opening brace and the brace that closes it, when `depth` more
braces are open within -/
def innerLength : Nat → Text → Option Nat
  | _, [] => none
  | _, ['\\'] => none
  | depth, '\\' :: _ :: rest => (innerLength depth rest).map (· + 2)
  | depth, '{' :: rest => (innerLength (depth + 1) rest).map (· + 1)
  | 0, '}' :: _ => some 0
  | depth + 1, '}' :: rest => (innerLength depth rest).map (· + 1)
  | depth, _ :: rest => (innerLength depth rest).map (· + 1)

def segments : Text → List Segment
  | [] => []
  | ['\\'] => [.plain '\\']
  | '\\' :: c :: rest => .escape c :: segments rest
  | '{' :: rest =>
    match innerLength 0 rest with
    | none => [.unclosed rest]
    | some n => .braces (rest.take n) :: segments (rest.drop (n + 1))
  | c :: rest => .plain c :: segments rest
termination_by t => t.length
decreasing_by all_goals simp; try omega

/-- where the inner text ends there is a closing brace -/
theorem innerLength_closes {depth : Nat} {t : Text} {n : Nat} (h : innerLength depth t = some n) :
    ∃ rest, t.drop n = '}' :: rest := by
  fun_induction innerLength depth t generalizing n with
  | case1 | case2 => simp at h
  | case5 =>
    obtain rfl : 0 = n := by simpa using h
    simp
  | _ =>
    obtain ⟨m, hm, rfl⟩ := Option.map_eq_some_iff.1 h
    rename_i ih
    simpa using ih hm

/-- the segments are the template, cut into stretches -/
theorem segments_text (t : Text) : (segments t).flatMap Segment.text = t := by
  fun_induction segments t with
  | case1 => rfl
  | case2 => rfl
  | case3 c rest ih => simp [Segment.text, ih]
  | case4 rest h => simp [Segment.text]
  | case5 rest n h ih =>
    obtain ⟨more, hm⟩ := innerLength_closes h
    have hd : rest.drop (n + 1) = more := by rw [← List.drop_drop, hm]; rfl
    rw [List.flatMap_cons, ih, hd]
    simp [Segment.text, ← hm]
  | case6 c rest _ _ _ ih => simp [Segment.text, ih]

end UriRouting.Template
