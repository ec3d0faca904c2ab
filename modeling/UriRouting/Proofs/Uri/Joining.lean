/-
Joining pieces of a URI. With the empty text, joining is a monoid: the pieces of a path may be joined in any bracketing,
also where one is a slash or ends in several. A piece that starts with one slash is put behind a base as it stands.

- `join_assoc`, `join_nil_left`, `join_nil_right`: the laws.
- `join_joined`: pieces joined two at a time, however bracketed, are the pieces joined one behind another.
- `join_slash`: a piece with one slash in front.
-/
import Mathlib.Data.List.DropRight
import UriRouting.Uri.Join

namespace UriRouting.Uri

/-! ## A piece with one slash in front -/

theorem dropLeading_slash {rest : Text} (h : rest.head? ≠ some '/') : Text.dropLeading ('/' :: rest) '/' = rest := by
  cases rest with
  | nil => rfl
  | cons c rest =>
    have hc : (c == '/') = false := by simpa using h
    simp [Text.dropLeading, hc]

theorem dropTrailing_of_getLast? {base : Text} {c : Char} (h : base.getLast? ≠ some c) : base.dropTrailing c = base := by
  refine List.rdropWhile_eq_self_iff.2 ?_
  intro hne hlast
  rw [List.getLast?_eq_getLast_of_ne_nil hne] at h
  exact h (congrArg some (beq_iff_eq.1 hlast))

theorem join_slash {base rest : Text} (hbase : base ≠ []) (h : rest.head? ≠ some '/') :
    join base ('/' :: rest) = base.dropTrailing '/' ++ '/' :: rest := by
  rw [join, if_neg hbase, if_neg (List.cons_ne_nil '/' rest), dropLeading_slash h]

/-! ## Cutting at either end -/

theorem dropLeading_cons (x : Char) (t : Text) (c : Char) :
    Text.dropLeading (x :: t) c = if x = c then t.dropLeading c else x :: t := by
  rw [Text.dropLeading, List.dropWhile_cons]
  simp only [beq_iff_eq, Text.dropLeading]

theorem dropTrailing_cons (x : Char) (t : Text) (c : Char) :
    Text.dropTrailing (x :: t) c =
      if t.dropTrailing c = [] then if x = c then [] else [x] else x :: t.dropTrailing c := by
  simp only [Text.dropTrailing, List.reverse_cons, List.dropWhile_append, List.isEmpty_iff, List.reverse_eq_nil_iff]
  split
  · rw [List.dropWhile_cons]
    simp only [beq_iff_eq, List.dropWhile_nil, apply_ite List.reverse, List.reverse_nil, List.reverse_singleton]
  · rw [List.reverse_append, List.reverse_singleton, List.singleton_append]

/-- where something stays behind it or it is another one, a character stays -/
theorem dropTrailing_cons_of_stays {x c : Char} {t : Text} (h : t.dropTrailing c = [] → x ≠ c) :
    Text.dropTrailing (x :: t) c = x :: t.dropTrailing c := by
  rw [dropTrailing_cons]
  split
  · rename_i hnil
    rw [if_neg (h hnil), hnil]
  · rfl

theorem dropTrailing_append {t : Text} {c : Char} (h : t.dropTrailing c ≠ []) (s : Text) :
    Text.dropTrailing (s ++ t) c = s ++ t.dropTrailing c := by
  induction s with
  | nil => rfl
  | cons x s ih =>
    rw [List.cons_append, dropTrailing_cons, ih, if_neg (List.append_ne_nil_of_right_ne_nil s h), List.cons_append]

theorem dropLeading_append {s : Text} {c : Char} (h : s.dropLeading c ≠ []) (t : Text) :
    Text.dropLeading (s ++ t) c = s.dropLeading c ++ t := by
  rw [Text.dropLeading, List.dropWhile_append, if_neg]
  · rfl
  · rwa [List.isEmpty_iff]

/-- a text of one character over and over is dropped from either end -/
theorem dropTrailing_eq_nil_iff {t : Text} {c : Char} : t.dropTrailing c = [] ↔ t.dropLeading c = [] := by
  rw [Text.dropTrailing, Text.dropLeading, List.reverse_eq_nil_iff, List.dropWhile_eq_nil_iff, List.dropWhile_eq_nil_iff]
  simp only [List.mem_reverse]

theorem dropTrailing_append_self (t : Text) (c : Char) : Text.dropTrailing (t ++ [c]) c = t.dropTrailing c := by
  rw [Text.dropTrailing, List.reverse_append, List.reverse_singleton, List.singleton_append, List.dropWhile_cons]
  simp [Text.dropTrailing]

theorem dropLeading_dropLeading (t : Text) (c : Char) : (t.dropLeading c).dropLeading c = t.dropLeading c :=
  List.dropWhile_idempotent _ t

theorem dropTrailing_dropTrailing (t : Text) (c : Char) : (t.dropTrailing c).dropTrailing c = t.dropTrailing c :=
  List.rdropWhile_idempotent _ t

/-- where something stays, it does not matter which end is cut first -/
theorem dropLeading_dropTrailing (t : Text) (c : Char) :
    (t.dropTrailing c).dropLeading c = (t.dropLeading c).dropTrailing c := by
  induction t with
  | nil => rfl
  | cons x t ih =>
    by_cases hx : x = c
    · calc (Text.dropTrailing (x :: t) c).dropLeading c
          = (Text.dropTrailing t c).dropLeading c := by
            rw [dropTrailing_cons, if_pos hx]
            split
            · rename_i hnil
              rw [hnil]
            · rw [dropLeading_cons, if_pos hx]
        _ = (Text.dropLeading (x :: t) c).dropTrailing c := by rw [ih, dropLeading_cons, if_pos hx]
    · rw [dropLeading_cons, if_neg hx, dropTrailing_cons, if_neg hx]
      split
      · rw [dropLeading_cons, if_neg hx]
      · rw [dropLeading_cons, if_neg hx]

/-! ## The laws -/

theorem join_nil_left (t : Text) : join [] t = t := rfl

theorem join_nil_right (t : Text) : join t [] = t := by
  rw [join, if_pos rfl]
  split
  · rename_i h; exact h.symm
  · rfl

theorem join_of_ne_nil {base rest : Text} (hbase : base ≠ []) (hrest : rest ≠ []) :
    join base rest = base.dropTrailing '/' ++ '/' :: rest.dropLeading '/' := by
  rw [join, if_neg hbase, if_neg hrest]

theorem join_ne_nil {base rest : Text} (hbase : base ≠ []) (hrest : rest ≠ []) : join base rest ≠ [] := by
  rw [join_of_ne_nil hbase hrest]
  exact List.append_ne_nil_of_right_ne_nil _ (List.cons_ne_nil _ _)

/-- **Joining is associative**, whatever the pieces -/
theorem join_assoc (p q r : Text) : join (join p q) r = join p (join q r) := by
  by_cases hp : p = []
  · rw [hp, join_nil_left, join_nil_left]
  by_cases hq : q = []
  · rw [hq, join_nil_left, join_nil_right]
  by_cases hr : r = []
  · rw [hr, join_nil_right, join_nil_right]
  rw [join_of_ne_nil (join_ne_nil hp hq) hr, join_of_ne_nil hp (join_ne_nil hq hr), join_of_ne_nil hp hq,
    join_of_ne_nil hq hr]
  by_cases hslashes : q.dropLeading '/' = []
  · -- nothing but slashes between the two: they are the one slash
    rw [hslashes, dropTrailing_eq_nil_iff.2 hslashes, dropTrailing_append_self, List.nil_append, dropLeading_cons,
      if_pos rfl, dropLeading_dropLeading, dropTrailing_dropTrailing]
  · have hleft : (q.dropTrailing '/').dropLeading '/' ≠ [] := by
      intro hnil
      rw [dropLeading_dropTrailing, dropTrailing_eq_nil_iff, dropLeading_dropLeading] at hnil
      exact hslashes hnil
    have hright : Text.dropTrailing ('/' :: q.dropLeading '/') '/' = '/' :: (q.dropTrailing '/').dropLeading '/' := by
      rw [dropTrailing_cons, if_neg (dropLeading_dropTrailing q '/' ▸ hleft), dropLeading_dropTrailing]
    rw [dropTrailing_append (hright ▸ List.cons_ne_nil _ _), hright, dropLeading_append hleft, List.append_assoc]
    rfl

/-- pieces joined by themselves and then to a text are joined to it one by one -/
theorem join_foldr (pieces : List Text) (t : Text) : join (pieces.foldr join []) t = pieces.foldr join t := by
  induction pieces with
  | nil => rfl
  | cons piece pieces ih => rw [List.foldr_cons, join_assoc, ih, List.foldr_cons]

/-- pieces joined two at a time -/
inductive Bracketing where
  | piece (t : Text)
  | pair (left right : Bracketing)
deriving Repr

namespace Bracketing

def pieces : Bracketing → List Text
  | piece t => [t]
  | pair left right => left.pieces ++ right.pieces

def joined : Bracketing → Text
  | piece t => t
  | pair left right => join left.joined right.joined

end Bracketing

/-- **The bracketing does not matter**: in front of a text, pieces joined in any of them are the pieces one by one -/
theorem join_joined (b : Bracketing) (t : Text) : join b.joined t = b.pieces.foldr join t := by
  induction b generalizing t with
  | piece s => rfl
  | pair left right ihLeft ihRight =>
    calc join (join left.joined right.joined) t
        = join left.joined (join right.joined t) := join_assoc _ _ _
      _ = left.pieces.foldr join (right.pieces.foldr join t) := by rw [ihRight, ihLeft]
      _ = (left.pieces ++ right.pieces).foldr join t := List.foldr_append.symm

end UriRouting.Uri
