import TurtlePlant.View.Mesh

/-!
# Viewer settings

The window, the lights and the camera of the viewer, and how a plant is shaded in it. Every setting has a value for when
nothing is asked for.
-/

namespace TurtlePlant

/-- A light: where it is, its colour and how strong it is. -/
structure Lamp (R : Type) where
  position : Vec3 R
  colour : String
  intensity : R

variable {R : Type} [Scalar R]

/-- The light that shines on the whole plant. -/
def Lamp.sun : Lamp R := ⟨⟨10.0, 10.0, 5.0⟩, "#FFF8DC", 1.2⟩

/-- A light of the sky, behind the plant. -/
def Lamp.sky : Lamp R := ⟨⟨-5.0, 5.0, -5.0⟩, "#87CEEB", 0.4⟩

/-- A light of the ground, below the plant. -/
def Lamp.ground : Lamp R := ⟨⟨5.0, -5.0, 5.0⟩, "#FFFACD", 0.3⟩

/-- The settings of the viewer. -/
structure ViewerConfig (R : Type) [Scalar R] where
  windowSize : R × R := (1024.0, 768.0)
  background : String := "black"
  cameraPosition : Vec3 R := ⟨4.0, 2.0, 2.0⟩
  focalPoint : Vec3 R := .zero
  /-- The angle of view, in degrees. -/
  viewAngle : R := 75.0
  sides : R := Mesh.usualSides
  ambient : R := 0.7
  diffuse : R := 0.8
  specular : R := 0.2
  shininess : R := 20.0
  sun : Lamp R := .sun
  lamps : List (Lamp R) := [.sky, .ground]
  /-- How fast the camera orbits, as a part of the usual speed. -/
  rotateSpeed : R := 0.2
  /-- The greatest angle between the upward direction and the offset of the camera. A right angle keeps the camera above
  the ground. -/
  maxPolarAngle : R := Scalar.pi / 2.0
  animate : Bool := false
  framesPerSecond : R := 30.0

end TurtlePlant
