import TurtlePlant.CommandLine.Token
import TurtlePlant.Decimal.Numeral

/-!
# Options

What a command line asks for. Switches are read from left to right and the last one of a kind counts; the first thing
wrong ends the reading, and words without a meaning are complained about at the end. A switch may be given a blank, which
is not looked at before the value is needed.

- `Options.read`: the request of a command line, or what is wrong with it;
- `Options.blankFault?`: what becomes of options with a blank where a plant cannot do without a value;
- `Options.job`: the job that options ask for otherwise.
-/

namespace TurtlePlant

/-- The options of a command line. -/
structure Options where
  preset : Given String := .value spatialTree.name
  iterations : Option (Given Int) := none
  seed : Option (Given Int) := none
  time : Given Float := .value 0.0
  backend : Given Backend := .value .window
  screenshot : Option (Given String) := none
  target : Option (Given String) := none
  animate : Bool := false
  listPresets : Bool := false
  verbose : Bool := false

/-- What a command line asks for. -/
inductive Invocation where
  | help
  | options (o : Options)

namespace Options

/-- The options with a switch set that takes no value. -/
def set (o : Options) : Switch → Options
  | .animate => { o with animate := true }
  | .listPresets => { o with listPresets := true }
  | .verbose => { o with verbose := true }
  | _ => o

/-- What stands for a blank. -/
def blankSign : String := "--"

/-- A text as a value, or a blank. -/
def given (value : String) : Given String := if value = blankSign then .blank else .value value

/-- A value that is read by `read`, or a blank. -/
def givenBy {α : Type} (read : String → Option α) (fault : UsageFault) (value : String) :
    Except UsageFault (Given α) :=
  match given value with
  | .blank => .ok .blank
  | .value text =>
    match read text with
    | some a => .ok (.value a)
    | none => .error fault

/-- The options with a switch set to a value. -/
def setValue (o : Options) (s : Switch) (value : String) : Except UsageFault Options :=
  match s with
  | .preset => return { o with preset := given value }
  | .iterations => return { o with iterations := some (← givenBy Decimal.int? (.notInt s value) value) }
  | .seed => return { o with seed := some (← givenBy Decimal.int? (.notInt s value) value) }
  | .time => return { o with time := ← givenBy Decimal.float? (.notFloat s value) value }
  | .backend =>
    let fault := UsageFault.notChoice s value (Backend.all.map Backend.name)
    return { o with backend := ← givenBy Backend.ofName? fault value }
  | .screenshot => return { o with screenshot := some (given value) }
  | .target => return { o with target := some (given value) }
  | _ => return o

/-- What is asked for once all tokens are read, with the words left over. -/
def finish (o : Options) (leftovers : List String) : Except UsageFault Invocation :=
  if leftovers.isEmpty then .ok (.options o) else .error (.unrecognized leftovers)

/-- Reads tokens after options and words left over, the last one first. -/
def readTokens (o : Options) (leftovers : List String) : List Token → Except UsageFault Invocation
  | [] => o.finish leftovers.reverse
  | .switch s value :: rest =>
    if s.takesValue then
      match value, rest with
      | some value, rest => do (← o.setValue s value).readTokens leftovers rest
      | none, .operand value :: rest => do (← o.setValue s value).readTokens leftovers rest
      | none, _ => .error (.missingValue s)
    else
      match value with
      | some value => .error (.ignoredValue s value)
      | none => if s = .help then .ok .help else (o.set s).readTokens leftovers rest
  | t :: rest => o.readTokens (t.leftover?.toList ++ leftovers) rest

/-- Reads a command line. -/
def read (words : List String) : Except UsageFault Invocation := do
  ({} : Options).readTokens [] (← Token.scan words)

/-- The settings in place of those of the preset. -/
def settings (o : Options) : Settings Number := { iterations := (o.iterations.bind Given.value?).map .int }

/-- The fault of a blank where a plant cannot do without a value: a blank for a preset, for the generations of a known
preset, and for the seed or the time of a plant that can be grown. -/
def blankFault? (o : Options) : Option Fault :=
  match o.preset with
  | .blank => some .nothingGiven
  | .value name =>
    if (Preset.find? name).isNone then none
    else if o.iterations.any Given.isBlank then some .nothingGiven
    else match Preset.accept name o.settings with
      | .error _ => none
      | .ok _ => if o.seed.any Given.isBlank || o.time.isBlank then some .nothingGiven else none

/-- The job that options ask for. -/
def job (o : Options) : Job where
  preset := o.preset.text
  settings := o.settings
  request := { seed := (o.seed.bind Given.value?).map .int, time := .float (o.time.value?.getD 0.0) }
  backend := (o.backend.map Backend.name).text
  screenshot := o.screenshot
  target := o.target.bind Given.value?
  animate := o.animate

end Options

end TurtlePlant
