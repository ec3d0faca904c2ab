/-
Form encoding undone. `decode?` reads a query text the way a receiver does: pieces between ampersands, each cut at its
first equals sign, a plus sign for a blank, a percent sign with two hexadecimal digits for a byte, and the bytes as UTF-8.
It gives no pairs when some bytes are not UTF-8. Capital and small digits are read alike, a percent sign without two digits
stands for itself, and an empty piece is no pair.

- `decodeText?_encodeText`: a key or a value is read back as it was.
- `decode?_encode`: so is a list of pairs, with its order and its repetitions.
-/
import Mathlib.Tactic
import UriRouting.Query.FormEncoding

namespace UriRouting.FormEncoding

/-! ## Reading a query text -/

def hexValue? (c : Char) : Option Nat :=
  if '0' ≤ c ∧ c ≤ '9' then some (c.toNat - '0'.toNat)
  else if 'A' ≤ c ∧ c ≤ 'F' then some (c.toNat - 'A'.toNat + 10)
  else if 'a' ≤ c ∧ c ≤ 'f' then some (c.toNat - 'a'.toNat + 10)
  else none

def byte? (high low : Char) : Option UInt8 :=
  match hexValue? high, hexValue? low with
  | some h, some l => some (UInt8.ofNat (16 * h + l))
  | _, _ => none

/-- the bytes that an encoded text stands for -/
def bytes : Text → List UInt8
  | [] => []
  | '+' :: t => 0x20 :: bytes t
  | '%' :: high :: low :: t =>
    match byte? high low with
    | some b => b :: bytes t
    | none => 0x25 :: bytes (high :: low :: t)
  | c :: t => String.utf8EncodeChar c ++ bytes t

def decodeText? (t : Text) : Option Text := (bytes t).toByteArray.utf8Decode?.map Array.toList

/-- the pair that a piece stands for; without an equals sign it is a key with the empty value -/
def decodePair? (piece : Text) : Option (Text × Text) :=
  match piece.cutAt '=' with
  | (key, value) => do
    let key ← decodeText? key
    let value ← decodeText? (value.getD [])
    return (key, value)

/-- the pairs of a query text, in order -/
def decode? (t : Text) : Option (List (Text × Text)) :=
  ((t.splitAll '&').filter fun piece => !piece.isEmpty).mapM decodePair?

/-! ## Bytes -/

theorem bytes_percent {high low : Char} {b : UInt8} (h : byte? high low = some b) (t : Text) :
    bytes ('%' :: high :: low :: t) = b :: bytes t := by
  rw [bytes, h]

theorem bytes_plain {c : Char} (hplus : c ≠ '+') (hpercent : c ≠ '%') (t : Text) :
    bytes (c :: t) = String.utf8EncodeChar c ++ bytes t := by
  rw [bytes]
  · exact hplus
  · intro high low u h
    exact absurd h hpercent

theorem byte?_percent {n : Nat} (h : n < 256) :
    byte? (capitalHexDigit (n / 16)) (capitalHexDigit (n % 16)) = some (UInt8.ofNat n) := by
  have hdigit : ∀ d < 16, hexValue? (capitalHexDigit d) = some d := by decide
  rw [byte?, hdigit (n / 16) (by omega), hdigit (n % 16) (by omega)]
  simp only [Nat.div_add_mod]

theorem bytes_flatMap_percent {bs : List Nat} (h : ∀ b ∈ bs, b < 256) (t : Text) :
    bytes (bs.flatMap percent ++ t) = bs.map UInt8.ofNat ++ bytes t := by
  induction bs with
  | nil => rfl
  | cons b bs ih =>
    obtain ⟨hb, hbs⟩ := List.forall_mem_cons.1 h
    simp only [List.flatMap_cons, percent, List.cons_append, List.nil_append, List.map_cons]
    rw [bytes_percent (byte?_percent hb), ih hbs]

theorem toNat_lt (c : Char) : c.toNat < 0x110000 := by
  rcases c.valid with h | ⟨-, h⟩
  · exact h.trans (by decide)
  · exact h

theorem utf8_lt (c : Char) : ∀ b ∈ utf8 c.toNat, b < 256 := by
  have hc := toNat_lt c
  unfold utf8
  split_ifs
  all_goals
    simp only [List.forall_mem_cons, List.not_mem_nil, false_implies, implies_true, and_true]
    omega

/-- the bytes of a character are those of the standard library -/
theorem map_utf8 (c : Char) : (utf8 c.toNat).map UInt8.ofNat = String.utf8EncodeChar c := by
  have hc := toNat_lt c
  have hval : c.val.toNat = c.toNat := rfl
  unfold utf8 String.utf8EncodeChar
  simp only [hval]
  split_ifs <;> first | omega | simp only [List.map_cons, List.map_nil, List.cons.injEq, and_true]
  · exact ⟨congrArg UInt8.ofNat (by omega), congrArg UInt8.ofNat (by omega)⟩
  · exact ⟨congrArg UInt8.ofNat (by omega), congrArg UInt8.ofNat (by omega), congrArg UInt8.ofNat (by omega)⟩
  · exact ⟨congrArg UInt8.ofNat (by omega), congrArg UInt8.ofNat (by omega), congrArg UInt8.ofNat (by omega),
      congrArg UInt8.ofNat (by omega)⟩

/-! ## Texts -/

theorem isUnreserved_capitalHexDigit (n : Nat) : isUnreserved (capitalHexDigit n) = true := by
  have hdigit : ∀ d < 16, isUnreserved (capitalHexDigit d) = true := by decide
  by_cases h : n < 16
  · exact hdigit n h
  · rw [capitalHexDigit, List.getD_eq_getElem?_getD, List.getElem?_eq_none (by simpa using h)]
    decide

/-- what encoded texts are made of -/
theorem mem_encodeText {t : Text} {c : Char} (h : c ∈ encodeText t) : isUnreserved c = true ∨ c = '+' ∨ c = '%' := by
  obtain ⟨d, -, hc⟩ := List.mem_flatMap.1 h
  unfold encodeChar at hc
  split at hc
  · rename_i hd
    obtain rfl := List.mem_singleton.1 hc
    exact .inl hd
  · split at hc
    · exact .inr (.inl (List.mem_singleton.1 hc))
    · obtain ⟨b, -, hc⟩ := List.mem_flatMap.1 hc
      simp only [percent, List.mem_cons, List.not_mem_nil, or_false] at hc
      rcases hc with hc | hc | hc
      · exact .inr (.inr hc)
      · exact .inl (hc ▸ isUnreserved_capitalHexDigit _)
      · exact .inl (hc ▸ isUnreserved_capitalHexDigit _)

theorem separator_not_mem_encodeText (t : Text) : '&' ∉ encodeText t ∧ '=' ∉ encodeText t := by
  refine ⟨?_, ?_⟩
  · intro h
    rcases mem_encodeText h with h | h | h <;> revert h <;> decide
  · intro h
    rcases mem_encodeText h with h | h | h <;> revert h <;> decide

theorem bytes_encodeChar (c : Char) (t : Text) : bytes (encodeChar c ++ t) = String.utf8EncodeChar c ++ bytes t := by
  unfold encodeChar
  split
  · rename_i hc
    refine bytes_plain ?_ ?_ t
    · rintro rfl
      revert hc
      decide
    · rintro rfl
      revert hc
      decide
  · split
    · rename_i hc
      rw [hc]
      rfl
    · rw [bytes_flatMap_percent (utf8_lt c), map_utf8]

theorem bytes_encodeText (t : Text) : bytes (encodeText t) = t.flatMap String.utf8EncodeChar := by
  induction t with
  | nil => rfl
  | cons c t ih => rw [encodeText, List.flatMap_cons, bytes_encodeChar, ← encodeText, ih, List.flatMap_cons]

/-- **An encoded text is read back as it was** -/
theorem decodeText?_encodeText (t : Text) : decodeText? (encodeText t) = some t := by
  have hbytes : (bytes (encodeText t)).toByteArray = List.utf8Encode t := by
    rw [bytes_encodeText]
    rfl
  rw [decodeText?, hbytes, List.utf8Decode?_utf8Encode]
  rfl

/-! ## Pairs -/

theorem splitAll_of_not_mem {c : Char} {t : Text} (h : c ∉ t) : t.splitAll c = [t] := by
  induction t with
  | nil => rfl
  | cons x t ih =>
    obtain ⟨hx, ht⟩ := not_or.1 (List.mem_cons.not.1 h)
    rw [Text.splitAll, if_neg (Ne.symm hx), ih ht]

theorem splitAll_append_of_not_mem {c : Char} {t : Text} (h : c ∉ t) (rest : Text) :
    (t ++ c :: rest).splitAll c = t :: rest.splitAll c := by
  induction t with
  | nil => rw [List.nil_append, Text.splitAll, if_pos rfl]
  | cons x t ih =>
    obtain ⟨hx, ht⟩ := not_or.1 (List.mem_cons.not.1 h)
    rw [List.cons_append, Text.splitAll, if_neg (Ne.symm hx), ih ht]

/-- pieces put together with a character that none of them has are cut apart again -/
theorem splitAll_joinWith {c : Char} {pieces : List Text} (hne : pieces ≠ []) (h : ∀ piece ∈ pieces, c ∉ piece) :
    (Text.joinWith [c] pieces).splitAll c = pieces := by
  induction pieces with
  | nil => exact absurd rfl hne
  | cons piece pieces ih =>
    obtain ⟨hpiece, hpieces⟩ := List.forall_mem_cons.1 h
    cases pieces with
    | nil => exact splitAll_of_not_mem hpiece
    | cons next pieces =>
      rw [Text.joinWith, List.append_assoc, List.singleton_append, splitAll_append_of_not_mem hpiece,
        ih (List.cons_ne_nil next pieces) hpieces]

theorem decodePair?_encodePair (pair : Text × Text) : decodePair? (encodePair pair) = some pair := by
  rw [decodePair?, encodePair, Text.cutAt_of_not_mem (separator_not_mem_encodeText pair.1).2]
  simp only [Option.getD_some, decodeText?_encodeText]
  rfl

/-- **Encoded pairs are read back as they were**, in their order and as often as they stand there -/
theorem decode?_encode (pairs : List (Text × Text)) : decode? (encode pairs) = some pairs := by
  have hsplit : ((encode pairs).splitAll '&').filter (fun piece => !piece.isEmpty) = pairs.map encodePair := by
    by_cases hpairs : pairs = []
    · rw [hpairs]
      rfl
    · have hpieces : (encode pairs).splitAll '&' = pairs.map encodePair := by
        refine splitAll_joinWith (by simpa using hpairs) ?_
        intro piece hpiece
        obtain ⟨pair, -, rfl⟩ := List.mem_map.1 hpiece
        simp [encodePair, separator_not_mem_encodeText]
      rw [hpieces, List.filter_eq_self]
      intro piece hpiece
      obtain ⟨pair, -, rfl⟩ := List.mem_map.1 hpiece
      simp [encodePair]
  rw [decode?, hsplit]
  clear hsplit
  induction pairs with
  | nil => rfl
  | cons pair pairs ih =>
    rw [List.map_cons, List.mapM_cons, decodePair?_encodePair, ih]
    rfl

end UriRouting.FormEncoding
