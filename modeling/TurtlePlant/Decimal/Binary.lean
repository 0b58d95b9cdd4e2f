/-!
# Machine numbers as exact values

A `Float` is a sign, a natural number and a power of two, or an infinity, or no number (NaN). `Binary.ofFloat` reads
the three fields of its 64 bits; everything exact about machine numbers (whole parts, decimal digits) starts here.

- `Binary.ofFloat`: the exact value of a `Float`;
- `Binary.floor`, `Binary.ceil`: the integers next to it;
- `Binary.compareInt?`: how it compares with an integer;
- `Binary.quotient`: the absolute value as a fraction.
-/

namespace TurtlePlant.Decimal

/-- The exact value of a machine number. -/
inductive Binary where
  | nan
  | infinite (negative : Bool)
  /-- `± mantissa · 2 ^ exponent`. -/
  | finite (negative : Bool) (mantissa : Nat) (exponent : Int)
  deriving DecidableEq, Repr

namespace Binary

/-- The value of a `Float`: one sign bit, eleven exponent bits and fifty-two fraction bits, of which a nonzero exponent
field is written with a leading one. -/
def ofFloat (x : Float) : Binary :=
  let bits := x.toBits.toNat
  let negative := decide (Nat.pow 2 63 ≤ bits)
  let exponent := bits / Nat.pow 2 52 % Nat.pow 2 11
  let fraction := bits % Nat.pow 2 52
  if exponent = 2047 then
    if fraction = 0 then .infinite negative else .nan
  else if exponent = 0 then .finite negative fraction (-1074)
  else .finite negative (Nat.pow 2 52 + fraction) (Int.ofNat exponent - 1075)

/-- The absolute value as a numerator and a denominator; `0 / 1` where there is none. -/
def quotient : Binary → Nat × Nat
  | .finite _ m e => if 0 ≤ e then (m * Nat.pow 2 e.toNat, 1) else (m, Nat.pow 2 (-e).toNat)
  | _ => (0, 1)

/-- The largest integer that is not above the value; `0` for infinities and NaN. -/
def floor : Binary → Int
  | .finite negative m e =>
    let (num, den) := quotient (.finite negative m e)
    (if negative then -(num : Int) else num) / (den : Int)
  | _ => 0

/-- The smallest integer that is not below the value; `0` for infinities and NaN. -/
def ceil : Binary → Int
  | .finite negative m e => -floor (.finite (!negative) m e)
  | _ => 0

/-- How the value compares with an integer; NaN does not. -/
def compareInt? (b : Binary) (n : Int) : Option Ordering :=
  match b with
  | .nan => none
  | .infinite negative => some (if negative then .lt else .gt)
  | .finite .. => some (if b.floor < n then .lt else if n < b.ceil then .gt else .eq)

/-- Whether the value is a number. -/
def isFinite : Binary → Bool
  | .finite .. => true
  | _ => false

end Binary

end TurtlePlant.Decimal
