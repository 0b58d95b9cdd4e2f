import TurtlePlant.Event
import TurtlePlant.View.Call
import TurtlePlant.View.Camera

/-!
# Scenes

A `Scene` is a plant in a window, lit and seen by a camera that orbits around it. `Scene.calls` sets it up; what is
still missing is to show it.

- `ViewerConfig.lights`: the lights of a scene, the sun first;
- `Scene.calls`, `Scene.events`: what setting a scene up asks for and tells;
- `Camera.calls`: what bringing the camera back asks for.
-/

namespace TurtlePlant

variable {R : Type} [Scalar R]

/-- The usual speed at which the mouse turns a scene. -/
def usualMotionFactor : R := 10.0

/-- A light that shines on everything from the direction of its position. -/
def Lamp.directional (l : Lamp R) (focalPoint : Vec3 R) : List (String × Arg R) :=
  [("color", .text l.colour), ("focal_point", .vector focalPoint), ("intensity", .number l.intensity),
    ("light_type", .text "scene light"), ("position", .vector l.position)]

/-- A light that shines from its position to all sides. -/
def Lamp.positional (l : Lamp R) : List (String × Arg R) :=
  [("color", .text l.colour), ("cone_angle", .number 180.0), ("intensity", .number l.intensity),
    ("light_type", .text "scene light"), ("position", .vector l.position), ("positional", .flag true)]

/-- The lights of a scene. -/
def ViewerConfig.lights (config : ViewerConfig R) : List (List (String × Arg R)) :=
  config.sun.directional config.focalPoint :: config.lamps.map Lamp.positional

/-- A plant in a window. -/
structure Scene (R : Type) [Scalar R] where
  branches : List (Branch R)
  config : ViewerConfig R := {}
  hasWindow : Bool := false
  hidden : Bool := false

namespace Scene

/-- The mesh of the plant, if there is anything to draw. -/
def mesh? (s : Scene R) : Option (Mesh R) := Mesh.ofBranches? s.branches s.config.sides

/-- Opens a window. -/
def windowCall (s : Scene R) : Call R where
  name := "Plotter"
  named := [("lighting", .text "none"), ("off_screen", .flag s.hidden),
    ("window_size", .list [.number s.config.windowSize.1, .number s.config.windowSize.2])]

/-- Puts the mesh into the window. -/
def meshCall (s : Scene R) (m : Mesh R) : Call R where
  name := "add_mesh"
  args := [.mesh m]
  named := [("ambient", .number s.config.ambient), ("diffuse", .number s.config.diffuse), ("rgb", .flag true),
    ("scalars", .text "rgb"), ("show_scalar_bar", .flag false), ("smooth_shading", .flag true),
    ("specular", .number s.config.specular), ("specular_power", .number s.config.shininess)]

/-- Sets the camera up. -/
def cameraCalls (config : ViewerConfig R) : List (Call R) :=
  let c := Camera.start config
  [⟨"camera_position", [.list [.vector c.position, .vector c.focalPoint, .vector c.up]], []⟩,
    ⟨"camera.view_angle", [.number config.viewAngle], []⟩]

/-- Lets the mouse turn the scene. -/
def orbitCalls (config : ViewerConfig R) : List (Call R) :=
  [⟨"enable_trackball_style", [], []⟩,
    ⟨"SetMotionFactor", [.number (usualMotionFactor * config.rotateSpeed)], []⟩,
    ⟨"AddObserver", [.text "InteractionEvent"], []⟩]

/-- Opens a window, if there is none, and paints its background. -/
def openingCalls (s : Scene R) : List (Call R) :=
  (if s.hasWindow then [] else [s.windowCall]) ++ [⟨"set_background", [.text s.config.background], []⟩]

/-- What setting the scene up asks for. -/
def calls (s : Scene R) : List (Call R) :=
  s.openingCalls ++ s.mesh?.toList.map s.meshCall ++
  s.config.lights.map (⟨"add_light", [], ·⟩) ++ cameraCalls s.config ++ orbitCalls s.config

/-- What setting the scene up tells. -/
def events (s : Scene R) : List Event := if s.mesh?.isNone then [.nothingToDraw] else []

end Scene

/-- What bringing the camera back asks for. -/
def Camera.calls (c : Camera R) : List (Call R) :=
  [⟨"camera.position", [.vector c.position], []⟩, ⟨"camera.up", [.vector c.up], []⟩]

end TurtlePlant
