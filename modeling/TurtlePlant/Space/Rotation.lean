import TurtlePlant.Space.Vec3

/-!
# Rotations

A rotation is a quaternion `x i + y j + z k + w`. One about a unit axis by an angle `t` is `axis · sin (t / 2)` with
real part `cos (t / 2)`; `Quaternion.ofRotationVector` reads it off the axis multiplied by the angle.

- `Quaternion.rotate`: the rotation of a vector;
- `Quaternion.unit?`: a quaternion brought to length one, refused when it has no length;
- `Quaternion.rotation?`: the same of parts that are given, which have to make a block of one form;
- `rotateAbout`: a vector turned about an axis;
- `rotationFromUp`: the rotation that takes `Vec3.up` onto a direction without twisting.
-/

namespace TurtlePlant

/-- A quaternion with its real part last. -/
structure Quaternion (R : Type) where
  x : R
  y : R
  z : R
  w : R
  deriving DecidableEq, Repr

/-- Why a quaternion is no rotation. -/
inductive RotationFault where
  /-- It has no length, or one that is no number. -/
  | zeroLength
  /-- One of its parts is an integer of more than 64 bits, so they have no form in common. -/
  | mixedParts
  deriving DecidableEq, Repr

namespace Quaternion

variable {R : Type}

/-- The four parts in order. -/
def toList (q : Quaternion R) : List R := [q.x, q.y, q.z, q.w]

section Arith

variable [Arith R]

/-- The rotation that moves nothing. -/
def identity : Quaternion R := ⟨0.0, 0.0, 0.0, 1.0⟩

/-- The rotated vector, by the rotation matrix of the quaternion. -/
def rotate (q : Quaternion R) (v : Vec3 R) : Vec3 R where
  x := (q.x * q.x - q.y * q.y - q.z * q.z + q.w * q.w) * v.x + 2.0 * (q.x * q.y - q.z * q.w) * v.y +
    2.0 * (q.x * q.z + q.y * q.w) * v.z
  y := 2.0 * (q.x * q.y + q.z * q.w) * v.x + (-(q.x * q.x) + q.y * q.y - q.z * q.z + q.w * q.w) * v.y +
    2.0 * (q.y * q.z - q.x * q.w) * v.z
  z := 2.0 * (q.x * q.z - q.y * q.w) * v.x + 2.0 * (q.y * q.z + q.x * q.w) * v.y +
    (-(q.x * q.x) - q.y * q.y + q.z * q.z + q.w * q.w) * v.z

/-- Parts that are the same numbers. -/
def same (p q : Quaternion R) : Bool := p.x == q.x && p.y == q.y && p.z == q.z && p.w == q.w

/-- A quaternion in its stored form, refused when a part has none. -/
def settled? (q : Quaternion R) : Except NumericFault (Quaternion R) := do
  return ⟨← TurtlePlant.settled? q.x, ← TurtlePlant.settled? q.y, ← TurtlePlant.settled? q.z,
    ← TurtlePlant.settled? q.w⟩

end Arith

section Scalar

variable [Scalar R]

/-- The length of a quaternion. -/
def norm (q : Quaternion R) : R := Scalar.sqrt (q.x * q.x + q.y * q.y + q.z * q.z + q.w * q.w)

/-- The quaternion of length one along `q`, if `q` has a length other than zero. -/
def unit? (q : Quaternion R) : Option (Quaternion R) :=
  let n := q.norm
  if n == 0.0 || isNaN n then none else some ⟨q.x / n, q.y / n, q.z / n, q.w / n⟩

/-- The rotation that a quaternion stands for. -/
def rotation? (q : Quaternion R) : Except RotationFault (Quaternion R) :=
  if Block.form q.toList = .mixed then .error .mixedParts
  else match q.unit? with
    | none => .error .zeroLength
    | some r => .ok r

/-- The rotation by the length of a vector, in radians, about its direction. A vector that is too short for its length to
be told from zero is halved, which is where the sine of half an angle over the angle goes. -/
def ofRotationVector (v : Vec3 R) : Quaternion R :=
  let angle := v.norm
  let k := if angle == 0.0 then 0.5 else Scalar.sin (angle / 2.0) / angle
  ⟨v.x * k, v.y * k, v.z * k, Scalar.cos (angle / 2.0)⟩

end Scalar

end Quaternion

variable {R : Type} [Scalar R]

/-- A vector turned about an axis by an angle in radians, by the right-hand rule. The axis counts by its direction, and
one too short to have a direction counts as `Vec3.up`. -/
def rotateAbout (v axis : Vec3 R) (angle : R) : Vec3 R :=
  (Quaternion.ofRotationVector (axis.normalize.scale angle)).rotate v

/-- The rotation that takes `Vec3.up` onto a direction, about the axis across both. For the direction of `up` itself it
is the identity and for the opposite one a half turn about `Vec3.across`. -/
def rotationFromUp (direction : Vec3 R) : Quaternion R :=
  let d := direction.normalize
  let cosine := clip (-1.0) 1.0 (Vec3.up.dot d)
  let axis := Vec3.up.cross d
  if axis.norm < leastLength then
    if (0.0 : R) < cosine then .identity else .ofRotationVector (Vec3.across.scale Scalar.pi)
  else .ofRotationVector ((axis.divide axis.norm).scale (Scalar.acos cosine))

end TurtlePlant
