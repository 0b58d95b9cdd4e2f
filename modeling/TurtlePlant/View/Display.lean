import TurtlePlant.Given
import TurtlePlant.View.Figure
import TurtlePlant.View.Scene
import TurtlePlant.View.Sway

/-!
# Displays

The ways of letting a plant be seen: in a window, which may be hidden and only leave a screenshot, or as a figure.

- `Display.branches?`: the plant that a display shows;
- `Display.attempt`: what it asks for, and whether it gets to its end;
- `Display.events`: what it tells once it is there.
-/

namespace TurtlePlant

variable {R : Type} [Scalar R]

/-- A way of letting something be seen. -/
inductive Display (R : Type) [Scalar R] where
  | window (branches : List (Branch R)) (config : ViewerConfig R) (screenshot : Option (Given String))
  | figure (f : Figure R)
  | showFigures
  | closeFigure

namespace Display

/-- The scene of a plant in a window. -/
def scene (branches : List (Branch R)) (config : ViewerConfig R) (screenshot : Option (Given String)) : Scene R where
  branches
  config
  hidden := screenshot.isSome

/-- The timer of a plant that sways, which it does in an open window only. -/
def timerCalls (s : Scene R) : Except NumericFault (List (Call R)) :=
  if s.config.animate && s.mesh?.isSome && !s.hidden then do
    return [.timer (← swayInterval? s.config.framesPerSecond) swaySteps]
  else .ok []

/-- A path as an argument; a blank is an empty list. -/
def pathArg : Given String → Arg R
  | .value path => .text path
  | .blank => .list []

/-- Shows the window, or leaves a screenshot of it. -/
def showCall (screenshot : Option (Given String)) : Call R where
  name := "show"
  named := screenshot.toList.map fun path => ("screenshot", pathArg path)

/-- What a plant in a window asks for, until it is shown or something is refused. -/
def attemptWindow (s : Scene R) (screenshot : Option (Given String)) : List (Call R) × Except NumericFault Unit :=
  match Skeleton.check s.branches with
  | .error fault => (s.openingCalls, .error fault)
  | .ok () =>
    match timerCalls s with
    | .error fault => (s.calls, .error fault)
    | .ok timer => (s.calls ++ timer ++ [showCall screenshot], .ok ())

/-- What a plant in a figure asks for, until it is drawn or something is refused. -/
def attemptFigure (f : Figure R) : List (Call R) × Except NumericFault Unit :=
  match f.check with
  | .error fault => (f.openingCalls, .error fault)
  | .ok () => (f.calls, .ok ())

/-- What a display asks for, and whether it gets to its end. -/
def attempt : Display R → List (Call R) × Except NumericFault Unit
  | window branches config screenshot => attemptWindow (scene branches config screenshot) screenshot
  | figure f => attemptFigure f
  | showFigures => ([⟨"plt.show", [], []⟩], .ok ())
  | closeFigure => ([⟨"plt.close", [], []⟩], .ok ())

/-- What a display asks for. -/
def calls (d : Display R) : List (Call R) := d.attempt.1

/-- What a display tells. -/
def events : Display R → List Event
  | window branches config screenshot =>
    (scene branches config screenshot).events ++ screenshot.toList.map fun path => .screenshotSaved path.text
  | figure f => f.events
  | showFigures | closeFigure => []

/-- The branches of the plant that a display shows, if it shows one. -/
def branches? : Display R → Option (List (Branch R))
  | window branches _ _ => some branches
  | figure f => some f.branches
  | showFigures | closeFigure => none

end Display

end TurtlePlant
