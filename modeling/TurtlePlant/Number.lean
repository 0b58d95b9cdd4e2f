import TurtlePlant.Decimal.Shortest
import TurtlePlant.Scalar.Double

/-!
# Numbers as they are given

A setting may be given as an integer or as a decimal, and messages show it as it was given: `0` and `0.0` are the same
length but not the same text.

- `Number.toFloat`: the number as a machine number;
- `Number.text`: the number as a message shows it;
- `Number.same`: whether two numbers have one value;
- `Number.integer?`: the number where something is counted by it.
-/

namespace TurtlePlant

/-- A number as it was given. -/
inductive Number where
  | int (n : Int)
  | float (x : Float)

/-- How machine numbers are written. -/
structure FloatFormat where
  /-- The least number of digits before the point for which digits are written in place, negative for zeros after it. -/
  leastPlaces : Int
  /-- The greatest number of digits before the point for which digits are written in place. -/
  mostPlaces : Int
  exponentDigits : Nat

/-- Numbers in messages: digits in place from `0.0001` up to below `10 ^ 16`, and two digits of a power of ten. -/
def FloatFormat.message : FloatFormat := ⟨-3, 16, 2⟩

/-- A run of zeros. -/
def zeros (n : Nat) : List Char := List.replicate n '0'

/-- A power of ten as written after the mark `e`: a sign and at least so many digits. -/
def exponentText (leastDigits : Nat) (e : Int) : List Char :=
  let digits := Nat.toDigits 10 e.natAbs
  (if e < 0 then '-' else '+') :: zeros (leastDigits - digits.length) ++ digits

/-- Digits with a point after the first `places` of them; in place if the format allows it, else with a power of ten. -/
def FloatFormat.write (f : FloatFormat) (digits : List Char) (places : Int) : List Char :=
  if f.leastPlaces ≤ places ∧ places ≤ f.mostPlaces then
    if places ≤ 0 then '0' :: '.' :: zeros (-places).toNat ++ digits
    else
      let n := places.toNat
      let fraction := digits.drop n
      digits.take n ++ zeros (n - digits.length) ++ '.' :: (if fraction.isEmpty then ['0'] else fraction)
  else
    let fraction := digits.drop 1
    digits.take 1 ++ (if fraction.isEmpty then [] else '.' :: fraction) ++
      'e' :: exponentText f.exponentDigits (places - 1)

/-- The text of a machine number: the fewest digits that read back as the same number. -/
def FloatFormat.text (f : FloatFormat) (x : Float) : String :=
  match Decimal.Binary.ofFloat x with
  | .nan => "nan"
  | .infinite negative => if negative then "-inf" else "inf"
  | .finite negative m e =>
    let body :=
      if m = 0 then ['0', '.', '0']
      else
        let (n, k) := Decimal.shortest m e
        let digits := Nat.toDigits 10 n
        f.write digits (digits.length + k)
    String.ofList (if negative then '-' :: body else body)

namespace Number

/-- The number as a machine number. -/
def toFloat : Number → Float
  | int n => Float.ofInt n
  | float x => x

/-- The number as a message shows it. -/
def text : Number → String
  | int n => toString n
  | float x => FloatFormat.message.text x

/-- Whether two numbers have one value. NaN has none. -/
def same : Number → Number → Bool
  | int m, int n => m == n
  | float x, float y => x == y
  | int n, float x | float x, int n => (Decimal.Binary.ofFloat x).compareInt? n == some .eq

/-- The integer that a number is given as, refused for a decimal. -/
def integer? : Number → Except NumericFault Int
  | int n => .ok n
  | float _ => .error .notInteger

end Number

end TurtlePlant
