/-
Sets of code points as ascending tables. A table lists its runs from the lowest to the highest, so a look-up stops at
the first run that starts beyond the code point asked for; on ASCII that is within the first few rows.

The tables are those of Unicode 14.0: a code point that a later version assigns, such as the ideograph U+31350 or the
digit U+11F50, is unassigned in all of them.
-/

namespace UriRouting.Codepoint

/-- runs of consecutive code points (first, last), ascending -/
abbrev Ranges := List (Nat × Nat)

/-- runs of code points a fixed stride apart (first, last, stride), ascending by first -/
abbrev StridedRanges := List (Nat × Nat × Nat)

/-- does one of the runs hold n? -/
def Ranges.covers : Ranges → Nat → Bool
  | [], _ => false
  | (lo, hi) :: rest, n => if n < lo then false else n ≤ hi || Ranges.covers rest n

def StridedRanges.covers : StridedRanges → Nat → Bool
  | [], _ => false
  | (lo, hi, stride) :: rest, n =>
    if n < lo then false else (n ≤ hi && (n - lo) % stride == 0) || StridedRanges.covers rest n

end UriRouting.Codepoint
