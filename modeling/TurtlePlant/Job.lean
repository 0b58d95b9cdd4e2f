import TurtlePlant.Archive.Store
import TurtlePlant.Plant
import TurtlePlant.View.Display

/-!
# Jobs

A `Job` grows one preset plant, keeps it in a file if asked to, and shows it in one of three ways. `Job.run` does it
on a `Desk`: the memory of the plant, the files, and what has been shown.

The plant is asked for once to be kept and returned and once more to be shown, with the same request, so what is shown
is what is remembered.
-/

namespace TurtlePlant

/-- The ways of showing a plant. -/
inductive Backend where
  | window
  | figure
  | nothing
  deriving DecidableEq, Repr

namespace Backend

/-- The name that a way of showing plants is asked for by. -/
def name : Backend → String
  | window => "pyvista"
  | figure => "matplotlib"
  | nothing => "none"

/-- The ways of showing a plant, in the order in which they are listed. -/
def all : List Backend := [window, figure, nothing]

/-- The way of a name. -/
def ofName? (s : String) : Option Backend := all.find? fun b => b.name == s

end Backend

/-- A plant to be grown, kept and shown. -/
structure Job where
  preset : String
  settings : Settings Number := {}
  request : Request := {}
  backend : String := Backend.window.name
  /-- Where a picture is saved; the plant is then not shown on the screen. -/
  screenshot : Option (Given String) := none
  /-- Where the branches are saved, unless the path is empty. -/
  target : Option String := none
  animate : Bool := false

/-- What a job works on. -/
structure Desk (R S : Type) [Scalar R] where
  memory : Memory R S
  store : Store R := {}
  displays : List (Display R) := []

namespace Desk

variable {R S : Type} [Scalar R]

/-- The calls made for what has been shown. -/
def calls (d : Desk R S) : List (Call R) := d.displays.flatMap Display.calls

/-- The branches that a plant has for a request. -/
def build (p : Plant R S) (r : Request) : Task (Desk R S) (List (Branch R)) :=
  (p.build r).within memory fun memory d => { d with memory }

/-- Branches saved under a path. -/
def save (path : String) (bs : List (Branch R)) : Task (Desk R S) Unit :=
  (Store.save path bs).within store fun store d => { d with store }

/-- Something shown. -/
def present (x : Display R) : Task (Desk R S) Unit := do
  Task.modify fun d => { d with displays := d.displays ++ [x] }
  Task.ofExcept (x.attempt.2.mapError .numeric)
  Task.tell x.events

end Desk

namespace Job

variable {R : Type} [Scalar R]

/-- The plant of a job, with a random axis for every turn. -/
def plant (job : Job) (house : Greenhouse R) : Except Fault (Plant R Unit) := do
  let grammar ← Preset.accept job.preset job.settings
  return { house with grammar := grammar.map house.value, axes := .random Pcg.source }

/-- The settings of the window of a job. -/
def config (job : Job) : ViewerConfig R := { animate := job.animate }

/-- Shows a plant. -/
def view (job : Job) (p : Plant R Unit) : Task (Desk R Unit) Unit := do
  match Backend.ofName? job.backend with
  | none => Task.ofExcept (.error (.unknownBackend job.backend))
  | some .nothing => return ()
  | some .window =>
    let branches ← Desk.build p job.request
    Desk.present (.window branches job.config job.screenshot)
  | some .figure =>
    let branches ← Desk.build p job.request
    Desk.present (.figure { branches, savePath := job.screenshot.bind Given.value? })
    Desk.present (if job.screenshot.isNone then .showFigures else .closeFigure)

/-- Saves branches if the job has a path for them. -/
def keep (job : Job) (bs : List (Branch R)) : Task (Desk R Unit) Unit :=
  match job.target.filter fun path => !path.isEmpty with
  | none => return ()
  | some path => Desk.save path bs

/-- Grows, keeps and shows a plant; the result is its branches. -/
def run (job : Job) (house : Greenhouse R) : Task (Desk R Unit) (List (Branch R)) := do
  let p ← Task.ofExcept (job.plant house)
  let branches ← Desk.build p job.request
  job.keep branches
  job.view p
  return branches

end Job

end TurtlePlant
