import TurtlePlant.Number

/-!
# Quantities

Plants are asked for in integers and in decimals, and calculations go on with both side by side. Among themselves
integers stay exact, however large. Beside a machine number an integer counts as the machine number nearest to it, and
if that would be an infinity, the calculation ends in nothing (`Quantity.lost`); nothing comes of nothing.

- `Quantity.ofNumber`: a number as it is given, to be calculated with;
- `Quantity.combine`: an operation on integers and on machine numbers, side by side;
- `Quantity.compare?`: comparison by exact values.

`Quantity` is a `Scalar`. Quotients, roots and circle functions are machine numbers.
-/

namespace TurtlePlant

open Decimal (Binary)

/-- A number that is calculated with. -/
inductive Quantity where
  | integer (n : Int)
  | machine (x : Float)
  /-- Nothing, for want of a machine number near an integer. -/
  | lost

namespace Quantity

/-- A number as it is given. -/
def ofNumber : Number → Quantity
  | .int n => integer n
  | .float x => machine x

/-- The machine number nearest an integer, unless that is an infinity. -/
def nearest? (n : Int) : Option Float :=
  let x := Float.ofInt n
  if x.isInf then none else some x

/-- A machine number or nothing. -/
def ofOption : Option Float → Quantity
  | none => lost
  | some x => machine x

/-- The value in place of which a quantity is stored. -/
def settle : Quantity → Quantity
  | integer n => ofOption (nearest? n)
  | q => q

/-- A function of machine numbers. -/
def onMachine (f : Float → Float) : Quantity → Quantity
  | integer n => ofOption ((nearest? n).map f)
  | machine x => machine (f x)
  | lost => lost

/-- An operation that is `onInts` for two integers and `f` with a machine number on either side. -/
@[inline] def combine (onInts : Int → Int → Quantity) (f : Float → Float → Float) : Quantity → Quantity → Quantity
  | machine x, machine y => machine (f x y)
  | integer m, integer n => onInts m n
  | integer m, machine y => ofOption ((nearest? m).map fun x => f x y)
  | machine x, integer n => ofOption ((nearest? n).map fun y => f x y)
  | lost, _ | _, lost => lost

/-- Integers up to this are machine numbers themselves. -/
def exactBound : Nat := Nat.pow 2 53

/-- The machine number nearest a quotient of natural numbers: seventy bits of it, of which the last one tells whether
anything is left over, rounded once. -/
def nearestQuotient (m n : Nat) : Float :=
  let shift : Int := 70 + Int.ofNat n.log2 - Int.ofNat m.log2
  let num := if 0 ≤ shift then m * Nat.pow 2 shift.toNat else m
  let den := if 0 ≤ shift then n else n * Nat.pow 2 (-shift).toNat
  (Float.ofNat (2 * (num / den) + if num % den = 0 then 0 else 1)).scaleB (-(shift + 1))

/-- The quotient of two integers. -/
def quotient (m n : Int) : Quantity :=
  if m.natAbs ≤ exactBound ∧ n.natAbs ≤ exactBound then machine (Float.ofInt m / Float.ofInt n)
  else if n = 0 then lost
  else
    let x := nearestQuotient m.natAbs n.natAbs
    if x.isInf then lost else machine (if (m < 0) = (n < 0) then x else -x)

/-- How two quantities compare, by their exact values; NaN and nothing do not. -/
def compare? : Quantity → Quantity → Option Ordering
  | integer m, integer n => some (compare m n)
  | machine x, integer n => (Binary.ofFloat x).compareInt? n
  | integer m, machine y => ((Binary.ofFloat y).compareInt? m).map Ordering.swap
  | machine x, machine y => if x < y then some .lt else if x == y then some .eq else if y < x then some .gt else none
  | lost, _ | _, lost => none

/-- Strict comparison. -/
def lt : Quantity → Quantity → Bool
  | machine x, machine y => x < y
  | a, b => a.compare? b == some .lt

/-- Weak comparison. -/
def le : Quantity → Quantity → Bool
  | machine x, machine y => x ≤ y
  | a, b => a.compare? b == some .lt || a.compare? b == some .eq

/-- Equality of values. -/
def equal : Quantity → Quantity → Bool
  | machine x, machine y => x == y
  | a, b => a.compare? b == some .eq

/-- The largest integer that is not above a quantity; `0` where there is none. -/
def floor : Quantity → Int
  | integer n => n
  | machine x => (Binary.ofFloat x).floor
  | lost => 0

instance : Arith Quantity where
  add := combine (fun m n => integer (m + n)) (· + ·)
  sub := combine (fun m n => integer (m - n)) (· - ·)
  mul := combine (fun m n => integer (m * n)) (· * ·)
  div := combine quotient (· / ·)
  neg
    | integer n => integer (-n)
    | machine x => machine (-x)
    | lost => lost
  lt a b := a.lt b = true
  le a b := a.le b = true
  beq := equal
  ofScientific m negative e := machine (OfScientific.ofScientific m negative e)
  decLt a b := inferInstanceAs (Decidable (a.lt b = true))
  decLe a b := inferInstanceAs (Decidable (a.le b = true))
  ofInt := integer
  heldInt?
    | integer n => some n
    | _ => none
  settle := settle
  isLost
    | lost => true
    | _ => false
  floor := floor
  fract
    | integer _ => machine 0.0
    | machine x => machine (doubleFract x)
    | lost => lost

instance : Scalar Quantity where
  sqrt := onMachine Float.sqrt
  sin := onMachine Float.sin
  cos := onMachine Float.cos
  acos := onMachine Float.acos
  pi := machine doublePi
  isInfinite
    | machine x => x.isInf
    | _ => false

end Quantity

end TurtlePlant
