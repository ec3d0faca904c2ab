/-
Shortest decimal notation of a double. A double is given by its 64 bits; a finite one is ± m · 2^q for natural m. The
reals that round to it form an interval, the ends included exactly when m is even. Among the decimals j · 10^k in that
interval the one written has the largest k, hence the fewest digits, and of two such the nearer to the value.

All arithmetic is exact: an interval is kept in units of 2^(q-2), and a comparison with j · 10^k multiplies both sides
up to natural numbers.

Layout: positional from 10^-4 up to below 10^16, with at least one digit after the point; otherwise one digit before
the point and an exponent with a sign and at least two digits.
-/
import UriRouting.Decimal.Natural

namespace UriRouting.Decimal

/-- the double with the given significand and binary exponent, sign aside -/
structure Magnitude where
  significand : Nat
  exponent : Int
deriving DecidableEq, Repr

/-- a double, read off its bits -/
inductive Double where
  | finite (negative : Bool) (magnitude : Magnitude)
  | infinite (negative : Bool)
  | notANumber
deriving DecidableEq, Repr

/-- sign bit, eleven bits of exponent, fifty-two bits of fraction -/
def Double.ofBits (bits : Nat) : Double :=
  let negative := bits.testBit 63
  let biased : Nat := (bits >>> 52) % (1 <<< 11)
  let fraction : Nat := bits % (1 <<< 52)
  if biased = 2047 then if fraction = 0 then .infinite negative else .notANumber
  else if biased = 0 then .finite negative ⟨fraction, -1074⟩
  else .finite negative ⟨(1 <<< 52) + fraction, (biased : Int) - 1075⟩

namespace Magnitude

/-- the lower end of the interval that rounds to m · 2^q, in units of 2^(q-2): half a step down, a quarter step where
the steps below are half as wide -/
def low (v : Magnitude) : Nat :=
  if v.significand = 1 <<< 52 ∧ -1074 < v.exponent then 4 * v.significand - 1 else 4 * v.significand - 2

def high (v : Magnitude) : Nat := 4 * v.significand + 2

/-- factors that make j · 10^k and x · 2^(q-2) comparable: j times the first, x times the second -/
def factors (v : Magnitude) (k : Int) : Nat × Nat :=
  let e := v.exponent - 2
  (Nat.pow 10 k.toNat <<< (-e).toNat, Nat.pow 10 (-k).toNat <<< e.toNat)

/-- does j · 10^k round to the value? -/
def reads (v : Magnitude) (k : Int) (j : Nat) : Bool :=
  let (a, b) := v.factors k
  if v.significand % 2 = 0 then v.low * b ≤ j * a && j * a ≤ v.high * b
  else v.low * b < j * a && j * a < v.high * b

/-- the multiple of 10^k to write for the value: of its two neighbours those that read back, of both the nearer -/
def onGrid (v : Magnitude) (k : Int) : Option Nat :=
  let (a, b) := v.factors k
  let x := 4 * v.significand * b
  let j := x / a
  match j != 0 && v.reads k j, v.reads k (j + 1) with
  | true, true =>
    let below := x - j * a
    let above := (j + 1) * a - x
    some (if below < above ∨ (below = above ∧ j % 2 = 0) then j else j + 1)
  | true, false => some j
  | false, true => some (j + 1)
  | false, false => none

/-- the first grid from 10^k downwards that has a decimal for the value: its exponent and the multiple -/
def search (v : Magnitude) : Nat → Int → Option (Nat × Int)
  | 0, _ => none
  | fuel + 1, k =>
    match v.onGrid k with
    | some j => some (j, k)
    | none => search v fuel (k - 1)

/-- the decimal j · 10^k to write; the grids run from the largest double's down past the smallest one's -/
def shortest (v : Magnitude) : Nat × Int := (v.search 700 309).getD (0, 0)

end Magnitude

/-- the decimal point is positional for values from ten to this power … -/
def positionalFrom : Int := -4

/-- … up to below ten to this power -/
def positionalBelow : Int := 16

/-- the decimal exponent, with a sign and at least two digits -/
def exponentText (e : Int) : Text :=
  let ds := digits e.natAbs
  'e' :: (if e < 0 then '-' else '+') :: (if ds.length < 2 then '0' :: ds else ds)

/-- the digits of j · 10^k laid out -/
def layOut (j : Nat) (k : Int) : Text :=
  let ds := digits j
  let leading := (ds.length : Int) + k - 1
  if positionalFrom ≤ leading ∧ leading < positionalBelow then
    if leading < 0 then '0' :: '.' :: List.replicate (-leading - 1).toNat '0' ++ ds
    else if 0 ≤ k then ds ++ List.replicate k.toNat '0' ++ ['.', '0']
    else ds.take (leading + 1).toNat ++ '.' :: ds.drop (leading + 1).toNat
  else
    match ds with
    | [] => []
    | [d] => d :: exponentText leading
    | d :: rest => d :: '.' :: rest ++ exponentText leading

def Double.text : Double → Text
  | .notANumber => "nan".toList
  | .infinite negative => if negative then "-inf".toList else "inf".toList
  | .finite negative v =>
    let unsigned :=
      if v.significand = 0 then "0.0".toList
      else
        let (j, k) := v.shortest
        layOut j k
    if negative then '-' :: unsigned else unsigned

end UriRouting.Decimal
