import TurtlePlant.Decimal.Binary

/-!
# Shortest decimal digits

A positive machine number `m · 2 ^ q` stands for every real number that rounds to it. Of the decimals in that interval,
`shortest` gives one with the fewest digits, and of those the nearest to the number; a tie goes to the even digit. All
arithmetic is exact, on fractions of natural numbers.

- `Span`: the interval of numbers that round to `m · 2 ^ q`;
- `shortest`: the chosen decimal, as a significand and a power of ten;
- `trimmed`: the same value without trailing zeros.
-/

namespace TurtlePlant.Decimal

/-- A nonnegative fraction; its denominator is meant to be positive. -/
structure Fraction where
  num : Nat
  den : Nat
  deriving DecidableEq, Repr

namespace Fraction

/-- `n · base ^ e`. -/
def scaled (n base : Nat) (e : Int) : Fraction :=
  if 0 ≤ e then ⟨n * Nat.pow base e.toNat, 1⟩ else ⟨n, Nat.pow base (-e).toNat⟩

/-- Strict comparison. -/
def lt (x y : Fraction) : Bool := decide (x.num * y.den < y.num * x.den)

/-- Weak comparison. -/
def le (x y : Fraction) : Bool := !y.lt x

/-- The whole part of a quotient. -/
def quotient (x y : Fraction) : Nat := x.num * y.den / (x.den * y.num)

end Fraction

/-- The number of decimal digits of a natural number. -/
def digitCount (n : Nat) : Nat := (Nat.toDigits 10 n).length

/-- The power of ten of the first digit of a positive fraction: `10 ^ e ≤ x < 10 ^ (e + 1)`. -/
def leadingExponent (x : Fraction) : Int :=
  if x.den ≤ x.num then (digitCount (x.num / x.den) : Int) - 1
  else
    let below := digitCount (x.den / x.num)
    if x.den ≤ x.num * Nat.pow 10 (below - 1) then 1 - (below : Int) else -(below : Int)

/-- The interval of real numbers that round to a machine number. -/
structure Span where
  lo : Fraction
  hi : Fraction
  closed : Bool
  deriving Repr

/-- The interval around `m · 2 ^ q`: half way to each neighbour, where the neighbour below a power of two is half as far
off. The ends round to an even mantissa. -/
def Span.around (m : Nat) (q : Int) : Span where
  lo := .scaled (4 * m - if m = Nat.pow 2 52 ∧ -1074 < q then 1 else 2) 2 (q - 2)
  hi := .scaled (4 * m + 2) 2 (q - 2)
  closed := m % 2 == 0

/-- Whether a fraction lies in an interval. -/
def Span.has (s : Span) (x : Fraction) : Bool :=
  if s.closed then s.lo.le x && x.le s.hi else s.lo.lt x && x.lt s.hi

/-- The multiple of `10 ^ k` in the interval around `m · 2 ^ q` that is nearest to it, if there is one. -/
def nearestOnGrid? (m : Nat) (q k : Int) : Option Nat :=
  let x := Fraction.scaled m 2 q
  let span := Span.around m q
  let s := x.quotient (.scaled 1 10 k)
  match span.has (.scaled s 10 k), span.has (.scaled (s + 1) 10 k) with
  | false, false => none
  | true, false => some s
  | false, true => some (s + 1)
  | true, true =>
    let middle := Fraction.scaled (10 * s + 5) 10 (k - 1)
    if x.lt middle then some s
    else if middle.lt x then some (s + 1)
    else if s % 2 = 0 then some s else some (s + 1)

/-- A significand without its trailing zeros, with the power of ten raised for each; `fuel` bounds their number. -/
def trimmed : Nat → Nat × Int → Nat × Int
  | 0, d => d
  | fuel + 1, (n, k) => if n ≠ 0 ∧ n % 10 = 0 then trimmed fuel (n / 10, k + 1) else (n, k)

/-- The fewest digits that read back as `m · 2 ^ q`, for `0 < m`: a significand and a power of ten. Seventeen digits are
always enough. -/
def shortest (m : Nat) (q : Int) : Nat × Int :=
  let e := leadingExponent (.scaled m 2 q)
  let found := (List.range 17).findSome? fun (n : Nat) =>
    (nearestOnGrid? m q (e - (n : Int))).map fun s => (s, e - (n : Int))
  trimmed 20 (found.getD (m, 0))

end TurtlePlant.Decimal
