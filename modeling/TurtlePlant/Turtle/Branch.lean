import TurtlePlant.Colour.Rgb
import TurtlePlant.Space.Box
import TurtlePlant.Space.Rotation

/-!
# Branches

A plant is drawn as a list of tapered segments. A `Branch` is one segment, with the rotation that takes `Vec3.up` onto
its direction, so that it can be modelled upright and rotated into place.
-/

namespace TurtlePlant

/-- One tapered segment. -/
structure Branch (R : Type) where
  start : Vec3 R
  stop : Vec3 R
  /-- The rotation of `Vec3.up` onto the direction of the segment. -/
  orientation : Quaternion R
  length : R
  radiusStart : R
  radiusEnd : R
  colour : Rgb R
  depth : R
  deriving DecidableEq, Repr

namespace Branch

variable {R : Type}

/-- The two ends of a segment. -/
def ends (b : Branch R) : List (Vec3 R) := [b.start, b.stop]

/-- The middle of a segment. -/
def centre [Arith R] (b : Branch R) : Vec3 R := (Vec3.combine (· + ·) b.start b.stop).divide 2.0

/-- The way from the start of a segment to its end. -/
def offset [Arith R] (b : Branch R) : Vec3 R := Vec3.combine (· - ·) b.stop b.start

/-- The direction of a segment, refused when the square of its length is an integer of more than 64 bits. -/
def direction? [Scalar R] (b : Branch R) : Except NumericFault (Vec3 R) := do
  let mixed := (Block.form b.start.toList).join (Block.form b.stop.toList) = .mixed
  if mixed then let _ ← narrow? (← kept? (b.offset.dot b.offset))
  return b.offset.settle.normalize

/-- The orientation as a rotation, if it is one. -/
def rotation? [Scalar R] (b : Branch R) : Except RotationFault (Quaternion R) := b.orientation.rotation?

/-- The box around all ends of some branches, if there are any. -/
def bounds? [Arith R] (bs : List (Branch R)) : Option (Box R) := Box.bounds? (bs.flatMap ends)

/-- Branches that hold the same numbers throughout. -/
def same [Arith R] (a b : Branch R) : Bool :=
  a.start.same b.start && a.stop.same b.stop && a.orientation.same b.orientation && a.length == b.length &&
  a.radiusStart == b.radiusStart && a.radiusEnd == b.radiusEnd && a.colour.same b.colour && a.depth == b.depth

/-- A segment in its stored form, refused when one of its numbers has none. -/
def settled? [Arith R] (b : Branch R) : Except NumericFault (Branch R) := do
  let start ← b.start.settled?
  let stop ← b.stop.settled?
  let orientation ← b.orientation.settled?
  let length ← TurtlePlant.settled? b.length
  let radiusStart ← TurtlePlant.settled? b.radiusStart
  let radiusEnd ← TurtlePlant.settled? b.radiusEnd
  let colour ← b.colour.settled?
  let depth ← TurtlePlant.settled? b.depth
  return { start, stop, orientation, length, radiusStart, radiusEnd, colour, depth }

end Branch

end TurtlePlant
