import TurtlePlant.Chance.Pcg
import TurtlePlant.Space.Vec3

/-!
# Draws and axes

The turtle asks for numbers, one after the other, from a `Source`, and for the axes of its turns from an `AxisSampler`,
which may draw numbers itself and keep a state of its own.

- `Source.draw3`: three numbers as a vector;
- `Pcg.source`: the numbers of a seeded generator, in `[0, 1)`;
- `Supply.source`: those, or the numbers of a list over and over;
- `AxisSampler.random`: a random unit axis for every turn;
- `AxisSampler.own`: axes that a sampler finds by itself, without drawing numbers;
- `AxisSampler.cycling`: the axes of a list over and over (`cycling_eq_own`).
-/

namespace TurtlePlant

/-- A source of numbers with states of a type `G`. -/
structure Source (R G : Type) where
  next : G → R × G

/-- A sampler of axes with states of its own of a type `S`: the next axis, and both states after it. -/
abbrev AxisSampler (R G S : Type) := S → G → Vec3 R × S × G

variable {R G S : Type}

/-- The next three numbers. -/
def Source.draw3 (src : Source R G) (g : G) : Vec3 R × G :=
  let (x, g) := src.next g
  let (y, g) := src.next g
  let (z, g) := src.next g
  (⟨x, y, z⟩, g)

/-- A generator as a source of numbers in `[0, 1)`. -/
def Pcg.source [Arith R] : Source R Pcg where
  next g :=
    let (n, g') := g.nextUnit
    (Arith.ofInt n / 9007199254740992.0, g')

/-- Where numbers come from: a seeded generator, or a list that starts again at its end. -/
inductive Supply (R : Type) where
  | generator (g : Pcg)
  /-- The numbers of a list, from a position on. -/
  | listed (draws : List R) (position : Nat)

/-- A supply as a source. An empty list gives zeros. -/
def Supply.source [Arith R] : Source R (Supply R) where
  next
    | .generator g =>
      let (x, g') := Pcg.source.next g
      (x, .generator g')
    | .listed draws position => (draws.getD (position % draws.length) 0.0, .listed draws (position + 1))

/-- A vector drawn uniformly from the unit cube around the origin, brought to unit length. -/
def randomUnitAxis [Scalar R] (src : Source R G) (g : G) : Vec3 R × G :=
  let (v, g) := src.draw3 g
  ((v.map (· - 0.5)).normalize, g)

/-- A random unit axis for every turn, whatever the sampler's state. -/
def AxisSampler.random [Scalar R] (src : Source R G) : AxisSampler R G S := fun s g =>
  let (axis, g) := randomUnitAxis src g
  (axis, s, g)

/-- The axes of a list in turn, starting again at its end; the state counts the axes given. -/
def AxisSampler.cycling [Arith R] (axes : List (Vec3 R)) : AxisSampler R G Nat := fun n g =>
  (axes.getD (n % axes.length) .up, n + 1, g)

/-- The axes that a sampler finds from its own state alone. -/
def AxisSampler.own (next : S → Vec3 R × S) : AxisSampler R G S := fun s g =>
  let (axis, s) := next s
  (axis, s, g)

/-- A list is gone through without drawing numbers. -/
theorem AxisSampler.cycling_eq_own [Arith R] (axes : List (Vec3 R)) :
    (AxisSampler.cycling axes : AxisSampler R G Nat) = .own fun n => (axes.getD (n % axes.length) .up, n + 1) := rfl

end TurtlePlant
