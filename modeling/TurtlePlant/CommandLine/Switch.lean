import TurtlePlant.Job

/-!
# Switches

The names that a command line may give, each with two dashes in front; some of them take a value. A switch may be
shortened as long as no other one starts the same way.

- `Switch.named`: the names with the switches that they stand for, in order;
- `Switch.startingWith`: the names that a shortened one may stand for.
-/

namespace TurtlePlant

/-- What a command line may ask for. -/
inductive Switch where
  | help | preset | iterations | seed | time | backend | screenshot | target | animate | listPresets | verbose
  deriving DecidableEq, Repr

namespace Switch

/-- The name of a switch. -/
def name : Switch → String
  | help => "--help"
  | preset => "--preset"
  | iterations => "--iterations"
  | seed => "--seed"
  | time => "--time"
  | backend => "--backend"
  | screenshot => "--screenshot"
  | target => "--export"
  | animate => "--animate"
  | listPresets => "--list-presets"
  | verbose => "--verbose"

/-- Whether a value follows a switch. -/
def takesValue : Switch → Bool
  | preset | iterations | seed | time | backend | screenshot | target => true
  | help | animate | listPresets | verbose => false

/-- The switches in order. -/
def all : List Switch :=
  [help, preset, iterations, seed, time, backend, screenshot, target, animate, listPresets, verbose]

theorem mem_all (s : Switch) : s ∈ all := by cases s <;> decide

/-- The short name of `help`. -/
def shortHelp : String := "-h"

/-- The names with their switches, in order. -/
def named : List (String × Switch) := (shortHelp, help) :: all.map fun s => (s.name, s)

/-- The switch of a name. -/
def ofName? (s : String) : Option Switch := named.lookup s

/-- The names that start with a text, with their switches. -/
def startingWith (s : String) : List (String × Switch) :=
  named.filter fun entry => s.toList.isPrefixOf entry.1.toList

/-- A switch as a complaint shows it. -/
def display : Switch → String
  | help => shortHelp ++ "/" ++ help.name
  | s => s.name

end Switch

end TurtlePlant
