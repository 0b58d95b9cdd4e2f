import TurtlePlant.Colour.Rgb
import TurtlePlant.Space.Vec3

/-!
# Poses

What the turtle knows while it walks: where it is and where it is heading, the size of its next segment, the colour of
its last one, and how deep in the plant it is. A pose is a value, so the snapshots on the turtle's stack stay as they
were taken.
-/

namespace TurtlePlant

/-- The state of the turtle between two symbols. -/
structure Pose (R : Type) where
  position : Vec3 R
  direction : Vec3 R
  length : R
  angle : R
  colour : Rgb R
  radius : R
  /-- How deep in the plant the turtle is: turns and branches taken. -/
  depth : R
  deriving DecidableEq, Repr

namespace Pose

variable {R : Type} [Arith R]

/-- Poses that hold the same numbers throughout. A number that is none is not the same as itself, except in the colour of
two poses that share one record of it, as a pose does with its copies until a segment is drawn. -/
def same (p q : Pose R) (sharedColour : Bool) : Bool :=
  p.position.same q.position && p.direction.same q.direction && p.length == q.length && p.angle == q.angle &&
  (sharedColour || p.colour.same q.colour) && p.radius == q.radius && p.depth == q.depth

/-- A pose, unless its length, its radius or its depth is lost. -/
def kept? (p : Pose R) : Except NumericFault (Pose R) := do
  let _ ← TurtlePlant.kept? p.length
  let _ ← TurtlePlant.kept? p.radius
  let _ ← TurtlePlant.kept? p.depth
  return p

end Pose

end TurtlePlant
