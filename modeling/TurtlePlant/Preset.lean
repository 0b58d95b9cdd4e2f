import TurtlePlant.Grammar
import TurtlePlant.Number

/-!
# Preset plants

Six plants that can be asked for by name, each a few settings over `Draft.standard`. Preset angles are written in
degrees.

- `presets`: the plants, in the order in which they are listed;
- `Preset.find?`: the plant of a name;
- `Preset.draft`: its draft, with the angle in radians.
-/

namespace TurtlePlant

/-- The settings of a plant for which nothing is given. -/
def Draft.standard : Draft Number where
  start := ['F']
  rules := []
  angle := .float (doublePi / 6.0)
  length := .float 0.08
  iterations := .int 4
  lengthVariation := .float 0.1
  angleVariation := .float 0.05
  radius := .float 0.02
  branchScale := .float 0.7
  branchJitter := .float 0.3
  taper := .float 0.8
  description := ""

/-- A plant that can be asked for by name. -/
structure Preset where
  name : String
  start : String
  rules : List (Char × String)
  /-- The angle of a turn, in degrees. -/
  degrees : Nat
  length : Float
  iterations : Nat
  lengthVariation : Float
  angleVariation : Float
  description : String

namespace Preset

/-- The productions as asked for in a draft. -/
def keyedRules (p : Preset) : List (RuleKey × Word) :=
  p.rules.map fun r => (.text (String.ofList [r.1]), r.2.toList)

/-- The settings of a preset. -/
def settings (p : Preset) : Settings Number where
  start := some p.start.toList
  rules := some p.keyedRules
  angle := some (.float (radians (Float.ofNat p.degrees)))
  length := some (.float p.length)
  iterations := some (.int p.iterations)
  lengthVariation := some (.float p.lengthVariation)
  angleVariation := some (.float p.angleVariation)
  description := some p.description

/-- The draft of a preset. -/
def draft (p : Preset) : Draft Number := p.settings.over .standard

end Preset

/-- A bushy tree that turns about random axes; the plant for which no name is given. -/
def spatialTree : Preset where
  name := "spatial_tree"
  start := "X"
  rules := [('X', "F+[[X]-X]-F[-FX]+X+F[+X]-X+F[+X]+X"), ('F', "FF")]
  degrees := 30
  length := 0.08
  iterations := 4
  lengthVariation := 0.1
  angleVariation := 0.05
  description := "Bushy volumetric tree with randomly oriented turns"

/-- A fern. -/
def fern : Preset where
  name := "fern"
  start := "X"
  rules := [('X', "F+[[X]-X]-F[-FX]+X"), ('F', "FF")]
  degrees := 25
  length := 0.05
  iterations := 5
  lengthVariation := 0.1
  angleVariation := 0.05
  description := "Fern-like frond pattern"

/-- A tree that forks in two. -/
def treeBinary : Preset where
  name := "tree_binary"
  start := "F"
  rules := [('F', "FF[+F][-F]")]
  degrees := 25
  length := 0.1
  iterations := 4
  lengthVariation := 0.1
  angleVariation := 0.1
  description := "Binary tree structure"

/-- A tree that forks in three. -/
def treeTernary : Preset where
  name := "tree_ternary"
  start := "F"
  rules := [('F', "F[+F]F[-F]F")]
  degrees := 20
  length := 0.05
  iterations := 4
  lengthVariation := 0.1
  angleVariation := 0.05
  description := "Ternary branching tree"

/-- A low shrub. -/
def shrub : Preset where
  name := "shrub"
  start := "A"
  rules := [('A', "F[+A][-A]FA"), ('F', "FF")]
  degrees := 35
  length := 0.06
  iterations := 5
  lengthVariation := 0.2
  angleVariation := 0.1
  description := "Low shrub with dense lateral branching"

/-- A vine. -/
def vine : Preset where
  name := "vine"
  start := "F"
  rules := [('F', "F[+F]F[-F][F]")]
  degrees := 20
  length := 0.06
  iterations := 4
  lengthVariation := 0.15
  angleVariation := 0.05
  description := "Vine-like growth"

/-- The preset plants, in the order in which they are listed. -/
def presets : List Preset := [spatialTree, fern, treeBinary, treeTernary, shrub, vine]

namespace Preset

/-- The plant of a name. -/
def find? (name : String) : Option Preset := presets.find? fun p => p.name == name

/-- The names of the presets in alphabetical order. -/
def sortedNames : List String := (presets.map name).mergeSort fun a b => decide (a ≤ b)

end Preset

end TurtlePlant
