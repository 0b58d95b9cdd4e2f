/-!
# Scalars

The numbers a plant is measured in. Turtle, colours and cameras run on machine numbers and are reasoned about on exact
ones, so everything that calculates is written over one of two classes without laws:

- `Arith`: the field operations, comparisons, decimal literals and whole parts;
- `Scalar`: `Arith` with square roots, the circle functions and a test for infinities.

Comparisons are those of the numbers at hand: on machine numbers a value that is no number compares with nothing, and
`lower`, `upper`, `strictLower`, `strictUpper` and `clip` say what becomes of it. The operations that can be refused
have a question mark at the end, such as `sine?` and `divide?`.

Some kinds of numbers hold integers of any size beside others that are not exact (`Quantity`). There a calculation may
end in nothing, because an integer had no number near it: such a value is lost, `kept?` refuses it, and `settled?` gives
the number in the form in which all numbers are stored.
-/

namespace TurtlePlant

/-- Field operations, comparisons, decimal literals, whole parts and stored forms, without laws. -/
class Arith (R : Type) extends Add R, Sub R, Mul R, Div R, Neg R, LT R, LE R, BEq R, OfScientific R where
  decLt : (a b : R) → Decidable (a < b)
  decLe : (a b : R) → Decidable (a ≤ b)
  ofInt : Int → R
  /-- The integer that is held in place of a number. -/
  heldInt? : R → Option Int
  /-- A number in the form in which it is stored. -/
  settle : R → R
  /-- Whether a calculation ended in nothing, for want of a number near an integer. -/
  isLost : R → Bool
  /-- The largest integer that is not above a number; `0` where there is none. -/
  floor : R → Int
  /-- A number less its whole part, in `[0, 1]`; no number where there is no whole part. -/
  fract : R → R

instance Arith.decidableLt {R : Type} [Arith R] (a b : R) : Decidable (a < b) := Arith.decLt a b

instance Arith.decidableLe {R : Type} [Arith R] (a b : R) : Decidable (a ≤ b) := Arith.decLe a b

/-- `Arith` with square roots, the circle functions and a test for infinities. -/
class Scalar (R : Type) extends Arith R where
  sqrt : R → R
  sin : R → R
  cos : R → R
  /-- The angle in `[0, π]` with a given cosine. -/
  acos : R → R
  pi : R
  /-- Whether a number is infinite. Exact numbers never are. -/
  isInfinite : R → Bool

/-- The ways in which a calculation is refused. -/
inductive NumericFault where
  | infiniteAngle
  | divisionByZero
  | wholePartOfNaN
  | wholePartOfInfinity
  | integerTooLarge
  /-- An integer of too many bits to be rounded or to have its root drawn. -/
  | integerTooWide
  | notInteger
  | lengths (first second : Nat)
  deriving DecidableEq, Repr

section Arith

variable {R : Type} [Arith R]

/-- The first of two numbers unless the second is strictly below it. -/
def lower (a b : R) : R := if b < a then b else a

/-- The first of two numbers unless the second is strictly above it. -/
def upper (a b : R) : R := if a < b then b else a

/-- A number moved into `[lo, hi]`; what compares with neither bound stays as it is. -/
def clip (lo hi x : R) : R := if x < lo then lo else if hi < x then hi else x

/-- Whether a value is no number (NaN): it differs from itself. -/
def isNaN (x : R) : Bool := !(x == x)

/-- The lower of two numbers, and no number if one of them is none. -/
def strictLower (a b : R) : R := if isNaN a then a else if isNaN b then b else lower a b

/-- The upper of two numbers, and no number if one of them is none. -/
def strictUpper (a b : R) : R := if isNaN a then a else if isNaN b then b else upper a b

/-- The point a part `t` of the way from `a` to `b`. -/
def lerp (a b t : R) : R := (1.0 - t) * a + t * b

/-- A number, unless it is lost. -/
def kept? (x : R) : Except NumericFault R := if Arith.isLost x then .error .integerTooLarge else .ok x

/-- A number in its stored form, refused for an integer that has none. -/
def settled? (x : R) : Except NumericFault R := kept? (Arith.settle x)

/-- The half of a number. -/
def half (x : R) : R := x / Arith.ofInt 2

/-- Division that refuses a zero divisor. Unless the divisor is an integer, the dividend is settled first. -/
def divide? (a b : R) : Except NumericFault R := do
  if b == 0.0 then
    if (Arith.heldInt? b).isNone then let _ ← settled? a
    throw .divisionByZero
  kept? (a / b)

/-- The nearest integer, a half going to the even neighbour. -/
def roundHalfEven (x : R) : Int :=
  let n := Arith.floor x
  let rest := x - Arith.ofInt n
  if rest < 0.5 then n else if (0.5 : R) < rest then n + 1 else if n % 2 = 0 then n else n + 1

/-- The integer next to a number on the side of zero. -/
def wholePart (x : R) : Int := if x < 0.0 then -Arith.floor (-x) else Arith.floor x

end Arith

section Scalar

variable {R : Type} [Scalar R]

/-- The sine of a finite angle. -/
def sine? (x : R) : Except NumericFault R :=
  if Scalar.isInfinite x then .error .infiniteAngle else kept? (Scalar.sin x)

/-- The cosine of a finite angle. -/
def cosine? (x : R) : Except NumericFault R :=
  if Scalar.isInfinite x then .error .infiniteAngle else kept? (Scalar.cos x)

/-- The integer next to a number on the side of zero, refused where there is none. -/
def wholePart? (x : R) : Except NumericFault Int :=
  if isNaN x then .error .wholePartOfNaN
  else if Scalar.isInfinite x then .error .wholePartOfInfinity
  else .ok (wholePart x)

/-- An angle in degrees, in radians. -/
def radians (x : R) : R := x * (Scalar.pi / 180.0)

/-- An angle in radians, in degrees. -/
def degrees (x : R) : R := x * (180.0 / Scalar.pi)

end Scalar

end TurtlePlant
