/-
Decimal notation of natural numbers: the digits from the highest to the lowest, without leading zeros, and a single 0
for zero.
-/
import UriRouting.Text.Basic

namespace UriRouting.Decimal

/-- the decimal digit of a number below ten -/
def digit (n : Nat) : Char := Char.ofNat (0x30 + n % 10)

/-- the decimal digits of n, the highest first -/
def digits (n : Nat) : Text := if n < 10 then [digit n] else digits (n / 10) ++ [digit n]

/-- the digits of an integer, a minus sign before those of a negative one -/
def signedDigits : Int → Text
  | .ofNat n => digits n
  | .negSucc n => '-' :: digits (n + 1)

/-- a numeral of more digits is not read -/
def readableLength : Nat := 4300

theorem digits_ne_nil (n : Nat) : digits n ≠ [] := by
  unfold digits
  split <;> simp

end UriRouting.Decimal
