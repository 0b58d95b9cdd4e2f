import TurtlePlant.View.Call
import TurtlePlant.Space.Vec3

/-!
# Swaying

In the wind a plant turns as a whole by small angles that depend on the time alone. The viewer draws it anew at every
step of a timer, and the time is counted in steps.

- `sway`: the three angles at a time;
- `swayInterval?`: the milliseconds between two steps;
- `swayOrientation`: the angles at a step, in degrees.
-/

namespace TurtlePlant

variable {R : Type} [Scalar R]

/-- The angles, in radians, by which the wind has turned a plant after some seconds. -/
def sway (elapsed : R) : Except NumericFault (Vec3 R) := do
  let x ← sine? (elapsed * 0.1)
  let y ← sine? (elapsed * 0.3)
  let z ← sine? (elapsed * 0.2)
  return ⟨x * 0.01, y * 0.02, z * 0.005⟩

/-- The milliseconds between two steps, at so many steps a second; never less than one. -/
def swayInterval? (framesPerSecond : R) : Except NumericFault Int := do
  let milliseconds ← divide? (Arith.ofInt 1000) framesPerSecond
  return max (← wholePart? milliseconds) 1

/-- How often a swaying plant is drawn before it comes to rest. -/
def swaySteps : R := 100000.0

/-- The angles, in degrees, at a step of a timer with some milliseconds between two steps. -/
def swayOrientation (interval : Int) (step : R) : Except NumericFault (Vec3 R) := do
  let angles ← sway (step * Arith.ofInt interval / 1000.0)
  return angles.map degrees

/-- Starts the timer. -/
def Call.timer (interval : Int) (steps : R) : Call R where
  name := "add_timer_event"
  named := [("duration", .int interval), ("max_steps", .number steps)]

/-- Draws the window anew. -/
def Call.render : Call R where
  name := "render"

end TurtlePlant
