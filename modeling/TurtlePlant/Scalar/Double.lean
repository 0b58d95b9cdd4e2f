import TurtlePlant.Scalar
import TurtlePlant.Decimal.Binary

/-!
# Machine numbers as scalars

`Float` is a `Scalar`: its own arithmetic, comparisons and circle functions, with whole parts taken exactly from the
binary value (`Decimal.Binary.floor`).
-/

namespace TurtlePlant

open Decimal (Binary)

/-- The circle constant, to the nearest machine number. -/
def doublePi : Float := 3.141592653589793

/-- A machine number less its whole part; NaN for infinities and NaN. -/
def doubleFract (x : Float) : Float :=
  let b := Binary.ofFloat x
  if b.isFinite then x - Float.ofInt b.floor else 0.0 / 0.0

instance : Arith Float where
  decLt := inferInstance
  decLe := inferInstance
  ofInt := Float.ofInt
  heldInt? _ := none
  settle x := x
  isLost _ := false
  floor x := (Binary.ofFloat x).floor
  fract := doubleFract

instance : Scalar Float where
  sqrt := Float.sqrt
  sin := Float.sin
  cos := Float.cos
  acos := Float.acos
  pi := doublePi
  isInfinite x := x.isInf

end TurtlePlant
