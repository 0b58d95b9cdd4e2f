import TurtlePlant.Scalar.Block

/-!
# Vectors

Vectors of space with the `y` axis pointing up, and unit vectors. `Vec3.normalizeOr` gives a vector its direction, or a
fallback when it is too short to have one.

`Coordinates` holds the same for lists of coordinates of any length.
-/

namespace TurtlePlant

/-- Vectors shorter than this have no direction. -/
def leastLength {R : Type} [Arith R] : R := 1e-9

/-- A vector of space. -/
structure Vec3 (R : Type) where
  x : R
  /-- The second coordinate, the height. -/
  y : R
  z : R
  deriving DecidableEq, Repr

namespace Vec3

variable {R : Type}

/-- The three coordinates in order. -/
def toList (v : Vec3 R) : List R := [v.x, v.y, v.z]

/-- A vector with each coordinate changed. -/
def map {S : Type} (f : R → S) (v : Vec3 R) : Vec3 S := ⟨f v.x, f v.y, f v.z⟩

/-- Two vectors combined coordinate by coordinate. -/
def zipWith (f : R → R → R) (v w : Vec3 R) : Vec3 R := ⟨f v.x w.x, f v.y w.y, f v.z w.z⟩

section Arith

variable [Arith R]

instance : Add (Vec3 R) := ⟨fun v w => ⟨v.x + w.x, v.y + w.y, v.z + w.z⟩⟩

instance : Sub (Vec3 R) := ⟨fun v w => ⟨v.x - w.x, v.y - w.y, v.z - w.z⟩⟩

/-- Two vectors combined coordinate by coordinate, each of them a block. -/
def combine (op : R → R → R) (v w : Vec3 R) : Vec3 R :=
  v.zipWith (BlockForm.combine op (Block.form v.toList) (Block.form w.toList)) w

/-- A vector multiplied by a number. -/
def scale (v : Vec3 R) (k : R) : Vec3 R := v.map (· * k)

/-- A vector divided by a number. -/
def divide (v : Vec3 R) (k : R) : Vec3 R := v.map (· / k)

/-- The origin. -/
def zero : Vec3 R := ⟨0.0, 0.0, 0.0⟩

/-- The direction in which a plant grows. -/
def up : Vec3 R := ⟨0.0, 1.0, 0.0⟩

/-- A direction across `up`, for half turns that could go either way. -/
def across : Vec3 R := ⟨1.0, 0.0, 0.0⟩

/-- The scalar product. -/
def dot (v w : Vec3 R) : R := v.x * w.x + v.y * w.y + v.z * w.z

/-- The vector product. -/
def cross (v w : Vec3 R) : Vec3 R :=
  ⟨v.y * w.z - v.z * w.y, v.z * w.x - v.x * w.z, v.x * w.y - v.y * w.x⟩

/-- Coordinates that are the same numbers. -/
def same (v w : Vec3 R) : Bool := v.x == w.x && v.y == w.y && v.z == w.z

/-- A vector in its stored form. -/
def settle (v : Vec3 R) : Vec3 R := v.map Arith.settle

/-- A vector in its stored form, refused when a coordinate has none. -/
def settled? (v : Vec3 R) : Except NumericFault (Vec3 R) := do
  return ⟨← TurtlePlant.settled? v.x, ← TurtlePlant.settled? v.y, ← TurtlePlant.settled? v.z⟩

end Arith

section Scalar

variable [Scalar R]

/-- The length of a vector. -/
def norm (v : Vec3 R) : R := Scalar.sqrt (v.dot v)

/-- The unit vector along `v`, or a fallback when `v` is too short. -/
def normalizeOr (v fallback : Vec3 R) : Vec3 R := if v.norm < leastLength then fallback else v.divide v.norm

/-- The unit vector along `v`, or `up` when `v` is too short. -/
def normalize (v : Vec3 R) : Vec3 R := v.normalizeOr up

end Scalar

end Vec3

/-! ## Coordinates of any number -/

namespace Coordinates

variable {R : Type}

/-- Two lists of coordinates in pairs. A single coordinate goes with every one of the other list; otherwise the lists are
of one length. -/
def pair : List R → List R → Except NumericFault (List (R × R))
  | [x], ys => .ok (ys.map fun y => (x, y))
  | xs, [y] => .ok (xs.map fun x => (x, y))
  | xs, ys => if xs.length = ys.length then .ok (xs.zip ys) else .error (.lengths xs.length ys.length)

/-- Coordinates in their stored form, refused when one of them has none. -/
def settled? [Arith R] (v : List R) : Except NumericFault (List R) := v.mapM TurtlePlant.settled?

/-- The coordinates of a block multiplied by a number. -/
def multiplied [Arith R] (v : List R) (k : R) : Except NumericFault (List R) := do
  let form := Block.form v
  let k ← form.factor? k
  v.mapM fun x => kept? (form.keep (k * form.hold x))

/-- The blend of two blocks of coordinates, pair by pair. -/
def lerp [Arith R] (a b : List R) (t : R) : Except NumericFault (List R) := do
  let first ← multiplied a (← kept? (1.0 - t))
  let second ← multiplied b t
  settled? ((← pair first second).map fun p => p.1 + p.2)

/-- The length of a vector given by its coordinates. -/
def norm [Scalar R] (v : List R) : R := Scalar.sqrt (v.foldl (fun s x => s + x * x) 0.0)

/-- The unit vector along `v`, or a fallback when `v` is too short. -/
def normalizeOr [Scalar R] (v fallback : List R) : List R :=
  if norm v < leastLength then fallback else v.map (· / norm v)

end Coordinates

end TurtlePlant
