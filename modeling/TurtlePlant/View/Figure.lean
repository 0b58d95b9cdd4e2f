import TurtlePlant.Event
import TurtlePlant.View.Call

/-!
# Figures

A `Figure` is a still picture of a plant: one line for each branch, as wide as the branch, inside a cube that holds the
whole plant. In a figure the third axis points up, so the second and third coordinates change places.

- `Figure.segments`, `Figure.widths`: the lines and how wide they are;
- `Figure.frame?`: the middle of the cube and half its side;
- `Figure.calls`, `Figure.events`: what drawing asks for and tells.
-/

namespace TurtlePlant

variable {R : Type}

/-- A vector as a figure shows it, with its height last. -/
def Vec3.heightLast (v : Vec3 R) : Vec3 R := ⟨v.x, v.z, v.y⟩

/-- Half the side of a cube is never less than this. -/
def leastHalfSide [Arith R] : R := 1e-6

/-- A still picture of a plant. -/
structure Figure (R : Type) [Arith R] where
  branches : List (Branch R)
  elevation : R := 20.0
  azimuth : R := 45.0
  /-- The width of a line for a branch of radius one. -/
  widthScale : R := 150.0
  savePath : Option String := none
  hasAxes : Bool := false

namespace Figure

variable [Arith R]

/-- The lines, one for each branch, by their ends. -/
def segments (f : Figure R) : List (Vec3 R × Vec3 R) :=
  f.branches.map fun b => (b.start.heightLast, b.stop.heightLast)

/-- The widths of the lines: the mean radius of each branch, scaled. -/
def widths (f : Figure R) : List R :=
  f.branches.map fun b => half (b.radiusStart + b.radiusEnd) * f.widthScale

/-- The ends of all lines. -/
def points (f : Figure R) : List (Vec3 R) := f.segments.flatMap fun s => [s.1, s.2]

/-- The form of all coordinates together. -/
def form (f : Figure R) : BlockForm := Block.form (f.points.flatMap Vec3.toList)

/-- The middle of the cube around the plant and half its side, if there is a plant. -/
def frame? (f : Figure R) : Option (Vec3 R × R) :=
  let form := f.form
  (Box.frame? form (f.points.map fun p => p.map form.hold)).map fun box =>
    let e := box.extent form
    (box.centre form, upper (half (form.high (form.high e.x e.y) e.z)) leastHalfSide)

/-- Where a picture is saved, unless the path is empty. -/
def target? (f : Figure R) : Option String := f.savePath.filter fun path => !path.isEmpty

/-- Opens a figure with axes in space, if there are none. -/
def openingCalls (f : Figure R) : List (Call R) :=
  if f.hasAxes then []
  else
    [⟨"figure", [], [("figsize", .list [.number 8.0, .number 10.0])]⟩,
      ⟨"add_subplot", [.number 111.0], [("projection", .text "3d")]⟩]

/-- Draws the lines. -/
def linesCall (f : Figure R) : Call R where
  name := "add_collection3d"
  named := [("colors", .list (f.branches.map fun b => .colour b.colour)),
    ("linewidths", .list (f.widths.map .number)),
    ("segments", .list (f.segments.map fun s => .list [.vector s.1, .vector s.2]))]

/-- Sets the limits of an axis. -/
def limitCall (name : String) (centre half : R) : Call R where
  name := name
  args := [.number (centre - half), .number (centre + half)]

/-- Sets the limits of all axes to the sides of a cube. -/
def limitCalls (centre : Vec3 R) (half : R) : List (Call R) :=
  [limitCall "set_xlim" centre.x half, limitCall "set_ylim" centre.y half, limitCall "set_zlim" centre.z half]

/-- The title. -/
def title (f : Figure R) : String := "3D Plant (" ++ toString f.branches.length ++ " branches)"

/-- Names the axes and the figure and sets the view. -/
def labelCalls (f : Figure R) : List (Call R) :=
  [⟨"set_xlabel", [.text "X"], []⟩, ⟨"set_ylabel", [.text "Z"], []⟩, ⟨"set_zlabel", [.text "Y (up)"], []⟩,
    ⟨"set_title", [.text f.title], []⟩,
    ⟨"view_init", [], [("azim", .number f.azimuth), ("elev", .number f.elevation)]⟩]

/-- Saves the picture. -/
def saveCall (path : String) : Call R where
  name := "savefig"
  args := [.text path]
  named := [("bbox_inches", .text "tight"), ("dpi", .number 150.0)]

/-- What drawing the figure asks for. -/
def calls (f : Figure R) : List (Call R) :=
  f.openingCalls ++
  (match f.frame? with
    | none => []
    | some (centre, half) => f.linesCall :: limitCalls centre half) ++
  f.labelCalls ++ f.target?.toList.map saveCall

/-- Whether the figure can be drawn: no width and no side of the cube is lost. -/
def check (f : Figure R) : Except NumericFault Unit := do
  let _ ← f.widths.mapM kept?
  match f.frame? with
  | none => return ()
  | some (centre, side) =>
    let _ ← centre.toList.mapM kept?
    let _ ← kept? side

/-- What drawing the figure tells. -/
def events (f : Figure R) : List Event :=
  (if f.branches.isEmpty then [.nothingToPlot] else []) ++ f.target?.toList.map .figureSaved

end Figure

end TurtlePlant
