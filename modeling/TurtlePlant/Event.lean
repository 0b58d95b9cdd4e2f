import TurtlePlant.Grammar
import TurtlePlant.Number

/-!
# Events

What is worth telling while a plant is grown, kept and drawn. Events are values; `Event.message` gives their wording,
which in one case names the time that has passed and is given it.
-/

namespace TurtlePlant

/-- How much an event matters. -/
inductive Level where
  | debug | info | warning | error
  deriving DecidableEq, Repr

namespace Level

/-- The name of a level in a log. -/
def name : Level → String
  | debug => "DEBUG"
  | info => "INFO"
  | warning => "WARNING"
  | error => "ERROR"

end Level

/-- Something worth telling. -/
inductive Event where
  | generation (number symbols : Nat)
  | expanded (start : Word) (iterations : Int) (symbols : Nat)
  | unclosed (count : Nat)
  | built (branches : Nat) (seed : Option Number) (time : Number)
  | saved (branches : Nat) (path : String)
  | nothingToDraw
  | nothingToPlot
  | screenshotSaved (path : String)
  | figureSaved (path : String)
  | failed (message : String)

namespace Event

/-- How much an event matters. -/
def level : Event → Level
  | generation .. | unclosed .. => .debug
  | expanded .. | built .. | saved .. | screenshotSaved .. | figureSaved .. => .info
  | nothingToDraw | nothingToPlot => .warning
  | failed .. => .error

/-- A seed as a message shows it. -/
def seedText : Option Number → String
  | none => "None"
  | some n => n.text

/-- The wording of an event, with the seconds that building a plant took. -/
def message (elapsed : String) : Event → String
  | generation number symbols => "Generation " ++ toString number ++ ": " ++ toString symbols ++ " symbols"
  | expanded start iterations symbols =>
    "Expanded '" ++ String.ofList start ++ "' over " ++ toString iterations ++ " iterations into " ++
      toString symbols ++ " symbols"
  | unclosed count => toString count ++ " unmatched '[' left on the stack"
  | built branches seed time =>
    "Built " ++ toString branches ++ " branches in " ++ elapsed ++ " s (seed=" ++ seedText seed ++ ", time=" ++
      time.text ++ ")"
  | saved branches path => "Saved " ++ toString branches ++ " branches to: " ++ path
  | nothingToDraw => "No branches to draw"
  | nothingToPlot => "No branches to plot"
  | screenshotSaved path => "Screenshot saved to: " ++ path
  | figureSaved path => "Plant figure saved to: " ++ path
  | failed message => message

/-- The line of an event in a log. -/
def line (elapsed : String) (e : Event) : String := e.level.name ++ " - " ++ e.message elapsed

end Event

/-! ## Expansion -/

/-- The generations of an expansion, one event for each word made. -/
def Event.ofGenerations (words : List Word) : List Event :=
  words.zipIdx.map fun (w, i) => .generation (i + 1) w.length

/-- The start word of a grammar after `n` generations, with the events of making them. -/
def Grammar.grow {R : Type} (g : Grammar R) (n : Int) : Word × List Event :=
  let words := g.rules.generations n.toNat g.start
  (words.getLastD g.start, Event.ofGenerations words)

/-- What is grown is the expansion. -/
theorem Grammar.fst_grow {R : Type} (g : Grammar R) (n : Int) : (g.grow n).1 = g.expandTo n :=
  g.rules.getLastD_generations n.toNat g.start

end TurtlePlant
