import TurtlePlant.CommandLine.Options

/-!
# Sessions

A `Session` is what becomes of one command line: an exit code, what is printed, what is complained about, what is
told, and the desk that the work was done on. A command line that cannot be read, or whose job ends in a fault, gives
exit code two and one complaint; a fault is told as well. A job that fails without anything to complain about is broken off
without either.
-/

namespace TurtlePlant

/-- What becomes of a command line. -/
structure Session (R : Type) [Scalar R] where
  exitCode : Nat := 0
  output : String := ""
  complaint : Option String := none
  breakdown : Option Fault := none
  events : List Event := []
  desk : Desk R Unit := { memory := { sampler := () } }

namespace Session

variable {R : Type} [Scalar R]

/-- The exit code of a command line that comes to nothing. -/
def failureCode : Nat := 2

/-- The exit code of a command line whose work is broken off. -/
def breakdownCode : Nat := 1

/-- The width of the names in the list of presets. -/
def nameWidth : Nat := 15

/-- A text brought to a width by blanks behind it. -/
def padded (width : Nat) (s : String) : String :=
  String.ofList (s.toList ++ List.replicate (width - s.length) ' ')

/-- The line of a preset. -/
def presetLine (p : Preset) : String := padded nameWidth p.name ++ " " ++ p.description ++ "\n"

/-- The list of presets. -/
def presetList : String := String.join (presets.map presetLine)

/-- The switches with a mark behind those that take a value. -/
def helpText : String :=
  "Generate and view a 3D L-system plant\n\noptions:\n" ++
  String.join (Switch.all.map fun s => "  " ++ s.display ++ (if s.takesValue then " VALUE" else "") ++ "\n")

/-- Whether an event is told. -/
def tells (o : Options) (e : Event) : Bool := o.verbose || e.level != .debug

/-- What becomes of a job that ended in some outcome. -/
def ofOutcome (o : Options) (outcome : Outcome (Desk R Unit) (List (Branch R))) : Session R :=
  let told := outcome.events.filter (tells o)
  match outcome.result with
  | .ok _ => { events := told, desk := outcome.state }
  | .error fault =>
    if fault.isComplaint then
      { exitCode := failureCode
        complaint := some fault.message
        events := told ++ [.failed fault.message]
        desk := outcome.state }
    else { exitCode := breakdownCode, breakdown := some fault, events := told, desk := outcome.state }

/-- What becomes of a job that starts with some files. -/
def ofJob (o : Options) (house : Greenhouse R) (store : Store R) : Session R :=
  let desk : Desk R Unit := { memory := { sampler := () }, store }
  match o.blankFault? with
  | some fault => ofOutcome o ⟨desk, [], .error fault⟩
  | none => ofOutcome o ((o.job.run house).run desk)

/-- What becomes of options. -/
def ofOptions (o : Options) (house : Greenhouse R) (store : Store R) : Session R :=
  if o.listPresets then { output := presetList } else ofJob o house store

/-- What becomes of a command line that is given with some files there. -/
def ofWords (words : List String) (house : Greenhouse R) (store : Store R) : Session R :=
  match Options.read words with
  | .error fault => { exitCode := failureCode, complaint := some fault.message }
  | .ok .help => { output := helpText }
  | .ok (.options o) => ofOptions o house store

end Session

end TurtlePlant
