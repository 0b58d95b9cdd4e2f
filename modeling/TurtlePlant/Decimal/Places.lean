import TurtlePlant.Decimal.Shortest

/-!
# Decimals of a given number of places

A machine number rounded to a number of decimal places, from its exact value; a tie goes to the even digit.

- `roundedQuotient`: the natural number nearest a fraction;
- `fixed`: a number with its places behind the point, without a sign if it is rounded to zero;
- `scientific`: one digit, the places behind the point, and a power of ten;
- `plain`: `fixed` below a bound and `scientific` from there on.
-/

namespace TurtlePlant.Decimal

/-- The natural number nearest a fraction, the even one of two that are equally near. -/
def roundedQuotient (x : Fraction) : Nat :=
  let n := x.num / x.den
  let rest := x.num % x.den
  if 2 * rest < x.den then n else if x.den < 2 * rest then n + 1 else if n % 2 = 0 then n else n + 1

/-- A text brought to a width by zeros in front of it. -/
def zeroPadded (width : Nat) (s : String) : String :=
  String.ofList (List.replicate (width - s.length) '0' ++ s.toList)

/-- The last `places` of some digits behind a point. -/
def pointed (places : Nat) (digits : String) : String :=
  let cs := digits.toList
  String.ofList (cs.take (cs.length - places) ++ '.' :: cs.drop (cs.length - places))

/-- The sign of a number. -/
def signText (negative : Bool) : String := if negative then "-" else ""

/-- A fraction with `places` behind the point. -/
def fixed (places : Nat) (negative : Bool) (x : Fraction) : String :=
  let n := roundedQuotient ⟨x.num * Nat.pow 10 places, x.den⟩
  signText (negative && n != 0) ++ pointed places (zeroPadded (places + 1) (toString n))

/-- A fraction as a digit, `places` behind the point and a power of ten; zero has no sign. -/
def scientific (places : Nat) (negative : Bool) (x : Fraction) : String :=
  if x.num = 0 then pointed places (zeroPadded (places + 1) "") ++ "e+00"
  else
    let e := leadingExponent x
    let scale := Fraction.scaled 1 10 (places - e)
    let n := roundedQuotient ⟨x.num * scale.num, x.den * scale.den⟩
    let (n, e) := if n = Nat.pow 10 (places + 1) then (Nat.pow 10 places, e + 1) else (n, e)
    signText negative ++ pointed places (toString n) ++ "e" ++ (if e < 0 then "-" else "+") ++
      zeroPadded 2 (toString e.natAbs)

/-- The text of a machine number that is one, written by `write`, or what it is otherwise. -/
def textBy (write : Bool → Fraction → String) (x : Float) : String :=
  match Binary.ofFloat x with
  | .nan => "nan"
  | .infinite negative => signText negative ++ "inf"
  | .finite negative m e => write negative (.scaled m 2 e)

/-- A fraction as `fixed` below `bound` and as `scientific` from there on. -/
def plain (places bound : Nat) (negative : Bool) (x : Fraction) : String :=
  if x.num < bound * x.den then fixed places negative x else scientific places negative x

end TurtlePlant.Decimal
