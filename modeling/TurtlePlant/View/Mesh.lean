import TurtlePlant.Turtle.Branch

/-!
# Meshes

A plant is drawn as one mesh of tapered tubes around a `Skeleton`: two points for each branch, joined by a line, with a
radius and a colour at each point. Colours are bytes.

- `nearestByte`: a number as a byte;
- `Skeleton.ofBranches`: the skeleton of some branches, in order;
- `Skeleton.check`: whether their numbers have the forms that a skeleton is made of;
- `Mesh.ofBranches?`: the mesh around it, if there are any branches.
-/

namespace TurtlePlant

variable {R : Type}

/-- A number as a byte: the nearest of `0, …, 255`, and zero for what is no number. -/
def nearestByte [Arith R] (x : R) : Nat :=
  if (255.0 : R) ≤ x then 255 else if (0.0 : R) < x then (roundHalfEven x).toNat else 0

/-- A part of a colour as a byte, in a block of some form: the byte nearest `255` times the part. -/
def channelByte [Arith R] (form : BlockForm) (x : R) : Nat := nearestByte (form.multiple 255 x)

/-- A colour as bytes, in a block of some form. -/
def Rgb.bytes [Arith R] (form : BlockForm) (c : Rgb R) : Rgb Nat :=
  ⟨channelByte form c.red, channelByte form c.green, channelByte form c.blue⟩

/-- The middle lines of the tubes of a plant. -/
structure Skeleton (R : Type) where
  points : List (Vec3 R)
  /-- The lines, each by the positions of its two points. -/
  lines : List (Nat × Nat)
  radii : List R
  colours : List (Rgb Nat)
  deriving DecidableEq, Repr

namespace Skeleton

/-- The form of all parts of the colours of some branches together. -/
def colourForm [Arith R] (bs : List (Branch R)) : BlockForm := Block.form (bs.flatMap fun b => b.colour.toList)

/-- The skeleton of some branches. -/
def ofBranches [Arith R] (bs : List (Branch R)) : Skeleton R :=
  let form := colourForm bs
  { points := bs.flatMap Branch.ends
    lines := (List.range bs.length).map fun i => (2 * i, 2 * i + 1)
    radii := bs.flatMap fun b => [b.radiusStart, b.radiusEnd]
    colours := bs.flatMap fun b => [b.colour.bytes form, b.colour.bytes form] }

/-- Whether some branches have a skeleton: points and radii need stored forms, and colours are rounded as a block, which
is not done with one that has an integer of more than 64 bits in it. -/
def check [Arith R] (bs : List (Branch R)) : Except NumericFault Unit := do
  let s := ofBranches bs
  let _ ← s.points.mapM Vec3.settled?
  let _ ← s.radii.mapM settled?
  if colourForm bs = .mixed then throw .integerTooWide

/-- The lines in one list, each as the number of its points and their positions. -/
def lineCells (s : Skeleton R) : List Nat := s.lines.flatMap fun (a, b) => [2, a, b]

end Skeleton

/-- Tubes around a skeleton. -/
structure Mesh (R : Type) where
  skeleton : Skeleton R
  sides : R
  deriving DecidableEq, Repr

namespace Mesh

/-- The number of sides of a tube unless another one is asked for. -/
def usualSides [Arith R] : R := 6.0

/-- The mesh of some branches, if there are any. -/
def ofBranches? [Arith R] (bs : List (Branch R)) (sides : R) : Option (Mesh R) :=
  if bs.isEmpty then none else some ⟨.ofBranches bs, sides⟩

end Mesh

end TurtlePlant
