import TurtlePlant.View.Config

/-!
# The orbit camera

The camera looks at a focal point and may be moved freely; after each move it is brought back to a polar angle,
measured from the upward direction around the focal point, between two bounds. Its distance and its direction seen
from above stay.

- `clampPolar`: a position brought back;
- `Camera.settle`: the camera after a move.
-/

namespace TurtlePlant

variable {R : Type} [Scalar R]

/-- Keeps the camera off the upward direction, where it would not know its sides. -/
def minPolarAngle : R := 1e-3

/-- Offsets with a horizontal part no longer than this have no direction seen from above. -/
def leastHorizontal : R := 1e-12

/-- The angle between the upward direction and an offset of a given length. -/
def polarAngle (offset : Vec3 R) (distance : R) : R := Scalar.acos (clip (-1.0) 1.0 (offset.y / distance))

/-- The direction of an offset seen from above, or that of `Vec3.across` for an offset straight up or down. -/
def horizontalDirection (offset : Vec3 R) : R × R :=
  let norm := Scalar.sqrt (offset.x * offset.x + offset.z * offset.z)
  if leastHorizontal < norm then (offset.x / norm, offset.z / norm) else (1.0, 0.0)

/-- A position around a focal point with its polar angle brought between two bounds. The focal point itself stays. -/
def clampPolar (position focalPoint : Vec3 R) (most least : R) : Except NumericFault (Vec3 R) := do
  let focalPoint ← focalPoint.settled?
  let position ← position.settled?
  let offset := position - focalPoint
  let distance := offset.norm
  if distance == 0.0 then return position
  let polar := polarAngle offset distance
  let clamped := lower (upper polar least) most
  if clamped == polar then return position
  let (x, z) := horizontalDirection offset
  let sine ← sine? clamped
  let cosine ← cosine? clamped
  return focalPoint + (⟨sine * x, cosine, sine * z⟩ : Vec3 R).scale distance

/-- Where the camera is, what it looks at and which way is up for it. -/
structure Camera (R : Type) where
  position : Vec3 R
  focalPoint : Vec3 R
  up : Vec3 R

namespace Camera

/-- The camera that the viewer starts with. -/
def start (config : ViewerConfig R) : Camera R := ⟨config.cameraPosition, config.focalPoint, .up⟩

/-- The camera after a move: brought back between the bounds, with the upward direction up. -/
def settle (config : ViewerConfig R) (c : Camera R) : Except NumericFault (Camera R) := do
  let position ← clampPolar c.position c.focalPoint config.maxPolarAngle minPolarAngle
  return { c with position, up := .up }

end Camera

end TurtlePlant
