import TurtlePlant.View.Mesh

/-!
# Drawing calls

What a window or a figure is asked to do, one `Call` after the other: a name, arguments in order, and arguments by name
in alphabetical order.
-/

namespace TurtlePlant

/-- An argument of a drawing call. -/
inductive Arg (R : Type) where
  | flag (b : Bool)
  | text (s : String)
  | number (x : R)
  | list (xs : List (Arg R))
  | mesh (m : Mesh R)

namespace Arg

variable {R : Type}

/-- An integer. -/
def int [Arith R] (n : Int) : Arg R := number (Arith.ofInt n)

/-- The coordinates of a vector. -/
def vector (v : Vec3 R) : Arg R := list (v.toList.map number)

/-- The parts of a colour. -/
def colour (c : Rgb R) : Arg R := list (c.toList.map number)

end Arg

/-- A drawing call. -/
structure Call (R : Type) where
  name : String
  args : List (Arg R) := []
  /-- The arguments by name, in alphabetical order. -/
  named : List (String × Arg R) := []

/-- How tubes are put around a skeleton. -/
def Mesh.tube {R : Type} [Arith R] (m : Mesh R) : List (String × Arg R) :=
  [("absolute", .flag true), ("capping", .flag true), ("n_sides", .number m.sides), ("scalars", .text "radius")]

end TurtlePlant
