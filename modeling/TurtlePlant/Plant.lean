import TurtlePlant.Archive.Table
import TurtlePlant.Task
import TurtlePlant.Turtle.Walk

/-!
# Plants

A `Plant` is grown from one grammar as often as it is asked for. Its word is expanded once, and every plant built is
kept under the request it was built for, so that asking again gives the same branches without building them again.

- `Plant.generate`: the word, expanded at the first call;
- `Plant.build`: the branches for a `Request`, kept or built; a build that fails keeps nothing but the word;
- `Plant.table`: the same branches as a table;
- `Plant.same`: which requests are answered by the same plant.

Each build without a seed gets a generator of its own, and the state of the axis sampler goes from build to build.
-/

namespace TurtlePlant

/-- What a plant is asked for with: a seed, if draws are to be the same every time, and a time to colour for. A time
that is no number equals no time; `occurrence` tells which times of that kind are one and the same. -/
structure Request where
  /-- The seed of the draws, which has to be an integer. -/
  seed : Option Number := none
  time : Number := .float 0.0
  /-- Which time this is, when it is no number. -/
  occurrence : Nat := 0

/-- What plants are grown with. -/
structure Greenhouse (R : Type) where
  /-- The generators of builds without a seed, in order. -/
  entropy : Nat → Pcg
  value : Number → R

/-- A plant to be built, with its grammar and where the axes of its turns come from. -/
structure Plant (R S : Type) extends Greenhouse R where
  grammar : Grammar R
  axes : AxisSampler R Pcg S

/-- A plant that was built, and the request it was built for. -/
structure Built (R : Type) where
  request : Request
  branches : List (Branch R)

/-- What is remembered of a plant between calls. -/
structure Memory (R S : Type) where
  word : Option Word := none
  built : List (Built R) := []
  /-- How many builds without a seed there were. -/
  unseeded : Nat := 0
  sampler : S

/-- Whether two requests have the same seed or none. -/
def Request.sameSeed (a b : Request) : Bool :=
  match a.seed, b.seed with
  | none, none => true
  | some m, some n => m.same n
  | _, _ => false

/-- The generator of a seed. -/
def Pcg.ofSeed? (seed : Int) : Except Fault Pcg :=
  if seed < 0 then .error .negativeSeed else .ok (.ofSeed seed.toNat)

/-- The events at the end of a walk. -/
def Walk.closingEvents {R G S : Type} (w : Walk R G S) : List Event :=
  if w.stack.isEmpty then [] else [.unclosed w.stack.length]

namespace Plant

variable {R S : Type}

/-- The time of a request in the form in which it is stored. -/
def time [Arith R] (p : Plant R S) (r : Request) : R := Arith.settle (p.value r.time)

/-- Requests that are answered by one and the same plant: for one seed, and for equal times or the same time that is no
number. -/
def same [Arith R] (p : Plant R S) (a b : Request) : Bool :=
  a.sameSeed b &&
  (p.time a == p.time b || (isNaN (p.time a) && isNaN (p.time b) && a.occurrence == b.occurrence))

/-- The plant remembered for a request. -/
def remembered? [Arith R] (p : Plant R S) (m : Memory R S) (r : Request) : Option (Built R) :=
  m.built.find? fun b => p.same b.request r

/-- The word of a plant, expanded unless it is remembered. -/
def generate (p : Plant R S) : Task (Memory R S) Word := do
  match (← Task.get).word with
  | some word => return word
  | none =>
    let iterations ← Task.ofExcept (p.grammar.iterations.integer?.mapError .numeric)
    let (word, events) := p.grammar.grow iterations
    Task.modify fun m => { m with word := some word }
    Task.tell (events ++ [.expanded p.grammar.start iterations word.length])
    return word

/-- The generator for a request: that of its seed, or the next one of those without. -/
def generator (p : Plant R S) (r : Request) : Task (Memory R S) Pcg := do
  match r.seed with
  | some seed => Task.ofExcept (do Pcg.ofSeed? (← seed.integer?.mapError .numeric))
  | none =>
    let m ← Task.get
    Task.modify fun m => { m with unseeded := m.unseeded + 1 }
    return p.entropy m.unseeded

/-- The turtle that draws a plant for a request. -/
def turtle [Arith R] (p : Plant R S) (r : Request) : Turtle R Pcg S :=
  ⟨p.grammar, Pcg.source, p.axes, p.value r.time⟩

/-- The branches that the turtle draws for a request. -/
def interpret [Scalar R] (p : Plant R S) (r : Request) (gen : Pcg) (word : Word) :
    Task (Memory R S) (List (Branch R)) := do
  let m ← Task.get
  let (walk, drawn) := (p.turtle r).interpret gen m.sampler word
  Task.modify fun m => { m with sampler := walk.sampler }
  let branches ← Task.ofExcept (drawn.mapError .numeric)
  Task.tell walk.closingEvents
  return branches

/-- The branches for a request that is not remembered. They are remembered from now on. -/
def buildAnew [Scalar R] (p : Plant R S) (r : Request) : Task (Memory R S) (List (Branch R)) := do
  let gen ← p.generator r
  let word ← p.generate
  let branches ← p.interpret r gen word
  Task.modify fun m => { m with built := m.built ++ [⟨r, branches⟩] }
  Task.tell [.built branches.length r.seed r.time]
  return branches

/-- The branches for a request, whose time has to have a stored form. -/
def build [Scalar R] (p : Plant R S) (r : Request) : Task (Memory R S) (List (Branch R)) := do
  let _ ← Task.ofExcept ((kept? (p.time r)).mapError .numeric)
  match p.remembered? (← Task.get) r with
  | some b => return b.branches
  | none => p.buildAnew r

/-- The branches for a request as a table. -/
def table [Scalar R] (p : Plant R S) (r : Request) : Task (Memory R S) (Table R) := do
  let branches ← p.build r
  Task.ofExcept ((Table.pack? branches).mapError .numeric)

end Plant

end TurtlePlant
