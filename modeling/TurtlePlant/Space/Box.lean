import TurtlePlant.Space.Vec3

/-!
# Bounding boxes

The least box with its sides along the axes around some points. What is made of a coordinate that is no number depends
on how the ends of the box are found:

- `Box.bounds?` goes by comparisons alone, so only the first point can put no number into it;
- `Box.frame?`, of points whose coordinates make a block of machine numbers, has no numbers for both ends of an axis on
  which some point has none.
-/

namespace TurtlePlant

/-- A box with its sides along the axes. -/
structure Box (R : Type) where
  low : Vec3 R
  high : Vec3 R
  deriving DecidableEq, Repr

namespace Box

variable {R : Type} [Arith R]

/-- The box around some points, if there are any, with its ends found by `low` and `high`. -/
def spanned? (low high : R → R → R) : List (Vec3 R) → Option (Box R)
  | [] => none
  | p :: ps => some ⟨ps.foldl (Vec3.zipWith low) p, ps.foldl (Vec3.zipWith high) p⟩

/-- The box around some points, if there are any, by comparisons alone. -/
def bounds? (ps : List (Vec3 R)) : Option (Box R) := spanned? lower upper ps

/-- The box around some points, if there are any, whose coordinates make a block of some form. -/
def frame? (form : BlockForm) (ps : List (Vec3 R)) : Option (Box R) := spanned? form.low form.high ps

/-- How far the box around a block of some form reaches along each axis. -/
def extent (form : BlockForm) (b : Box R) : Vec3 R := b.high.zipWith (form.combine (· - ·) form) b.low

/-- The middle of the box around a block of some form. -/
def centre (form : BlockForm) (b : Box R) : Vec3 R := (b.low.zipWith (form.combine (· + ·) form) b.high).map half

end Box

end TurtlePlant
