import TurtlePlant.Colour.Rgb

/-!
# Bark colours

A segment is coloured by the depth of the turtle that draws it: from the colour of the trunk over that of a branch to
that of a twig. The lightness swings a little with depth and time.

- `barkGradient`: the colour by depth alone;
- `barkColour`: the colour of a segment at a time.
-/

namespace TurtlePlant

variable {R : Type}

/-- The colour of the trunk. -/
def trunkColour [Arith R] : Rgb R := .ofBytes 0x8B 0x45 0x13

/-- The colour of a branch. -/
def branchColour [Arith R] : Rgb R := .ofBytes 0xCD 0x85 0x3F

/-- The colour of a twig. -/
def twigColour [Arith R] : Rgb R := .ofBytes 0xD2 0x69 0x1E

/-- The depth from which everything has the colour of a twig. -/
def twigDepth [Arith R] : R := 5.0

/-- The part of `twigDepth` at which the trunk has become a branch. -/
def gradientSplit [Arith R] : R := 0.3

/-- How far the lightness swings either way. -/
def lightnessAmplitude [Arith R] : R := 0.05

/-- How fast the lightness swings with time. -/
def lightnessFrequency [Arith R] : R := 0.1

/-- The colour by depth: trunk to branch to twig. Depths below zero count as zero. -/
def barkGradient [Arith R] (depth : R) : Rgb R :=
  let t := lower (upper depth 0.0) twigDepth / twigDepth
  if t < gradientSplit then trunkColour.lerp branchColour (t / gradientSplit)
  else branchColour.lerp twigColour ((t - gradientSplit) / (1.0 - gradientSplit))

/-- The colour of a segment drawn at a depth, at a time. -/
def barkColour [Scalar R] (depth time : R) : Except NumericFault (Rgb R) := do
  let swing ← sine? (time * lightnessFrequency + depth)
  (barkGradient depth).offsetLightness (swing * lightnessAmplitude)

end TurtlePlant
