import TurtlePlant.Chance.Source
import TurtlePlant.Colour.Bark
import TurtlePlant.Grammar
import TurtlePlant.Turtle.Branch
import TurtlePlant.Turtle.Pose

/-!
# The walk of the turtle

The turtle reads a word symbol by symbol. `F` draws a segment, `+` and `-` turn about an axis, `[` saves the pose and
opens a thinner and shorter branch with a nudged direction, `]` goes back to the pose saved last; every other symbol is
passed over. Lengths, angles and nudges are jittered by numbers from a source.

- `Turtle.step`: one symbol. A step fails when a segment has no colour or a size or depth is lost; the numbers and axes
  taken and the poses saved and taken back until then stay so, and the pose stays as it was;
- `Turtle.run`: a word, with the branches drawn in order (`run_nil`, `run_cons`);
- `Turtle.interpret`: a word read from the origin with an empty stack.
-/

namespace TurtlePlant

/-- What a turn adds to the depth. -/
def turnDepth {R : Type} [Arith R] : R := 0.1

/-- What opening a branch adds to the depth, and what `]` takes off it. -/
def branchDepth {R : Type} [Arith R] : R := 0.2

/-- A turtle: what it draws by, where its numbers and axes come from, and the time it colours for. -/
structure Turtle (R G S : Type) where
  grammar : Grammar R
  source : Source R G
  axes : AxisSampler R G S
  time : R

/-- A turtle's progress: its pose, the poses saved (the last one first), and the states of its source and sampler. -/
structure Walk (R G S : Type) where
  pose : Pose R
  stack : List (Pose R)
  gen : G
  sampler : S

namespace Turtle

variable {R G S : Type} [Scalar R]

/-- The pose a plant starts from: at the origin, heading up. -/
def startPose (g : Grammar R) : Pose R where
  position := .zero
  direction := .up
  length := g.length
  angle := g.angle
  colour := trunkColour
  radius := g.radius
  depth := 0.0

/-- A walk at the origin with an empty stack. -/
def start (t : Turtle R G S) (gen : G) (sampler : S) : Walk R G S := ⟨startPose t.grammar, [], gen, sampler⟩

/-! ## One symbol -/

/-- The length of the segment drawn from a pose with a drawn number `u`. -/
def segmentLength (g : Grammar R) (p : Pose R) (u : R) : R := p.length * (1.0 + (u - 0.5) * g.lengthVariation)

/-- The segment drawn from a pose with a drawn number `u`, once its colour is known. -/
def segment (g : Grammar R) (p : Pose R) (u : R) (colour : Rgb R) : Branch R :=
  let length := segmentLength g p u
  { start := p.position
    stop := p.position + p.direction.scale length
    orientation := rotationFromUp p.direction
    length
    radiusStart := p.radius * g.taper
    radiusEnd := p.radius
    colour
    depth := p.depth }

/-- The segment drawn from a pose with a drawn number `u`: its length is found first, then its colour, then its radii. -/
def segment? (t : Turtle R G S) (p : Pose R) (u : R) : Except NumericFault (Branch R) := do
  let _ ← kept? (segmentLength t.grammar p u)
  let b := segment t.grammar p u (← barkColour p.depth t.time)
  let _ ← kept? b.radiusStart
  return b

/-- A step forward: one number is drawn, a segment is drawn, and the turtle stands at its end. -/
def forward (t : Turtle R G S) (w : Walk R G S) : Walk R G S × Except NumericFault (Branch R) :=
  let (u, gen) := t.source.next w.gen
  match t.segment? w.pose u with
  | .error fault => ({ w with gen }, .error fault)
  | .ok b => ({ w with gen, pose := { w.pose with position := b.stop, colour := b.colour } }, .ok b)

/-- The angle by which a pose turns with a drawn number `u`, but for its sign. -/
def turnAngle (g : Grammar R) (p : Pose R) (u : R) : R := p.angle + (u - 0.5) * g.angleVariation

/-- A pose after a turn about an axis. -/
def turned (p : Pose R) (axis : Vec3 R) (angle : R) : Pose R :=
  { p with direction := rotateAbout p.direction axis angle, depth := p.depth + turnDepth }

/-- A turn by the pose's angle times `sign`: one number is drawn, then an axis is taken. -/
def turn (t : Turtle R G S) (w : Walk R G S) (sign : R) : Walk R G S × Except NumericFault (Pose R) :=
  let (u, gen) := t.source.next w.gen
  match kept? (turnAngle t.grammar w.pose u) with
  | .error fault => ({ w with gen }, .error fault)
  | .ok angle =>
    let (axis, sampler, gen) := t.axes w.sampler gen
    ({ w with gen, sampler }, (turned w.pose axis (sign * angle)).kept?)

/-- The direction of a branch that opens, with three drawn numbers. -/
def nudged (g : Grammar R) (p : Pose R) (u : Vec3 R) : Vec3 R :=
  (p.direction + (u.map (· - 0.5)).scale g.branchJitter).normalizeOr p.direction

/-- A pose in a branch that opens, with three drawn numbers. -/
def opened (g : Grammar R) (p : Pose R) (u : Vec3 R) : Pose R :=
  { p with
    length := p.length * g.branchScale
    radius := p.radius * g.branchScale
    depth := p.depth + branchDepth
    direction := nudged g p u }

/-- A branch opens: the pose is saved, three numbers are drawn, and the turtle goes on thinner, shorter and nudged. -/
def openBranch (t : Turtle R G S) (w : Walk R G S) : Walk R G S × Except NumericFault (Pose R) :=
  let (u, gen) := t.source.draw3 w.gen
  ({ w with gen, stack := w.pose :: w.stack }, do
    let _ ← kept? (nudged t.grammar w.pose u).x
    (opened t.grammar w.pose u).kept?)

/-- A pose in front of a branch that closes. -/
def closed (p : Pose R) : Pose R := { p with depth := p.depth - branchDepth }

/-- A branch closes: the pose saved last comes back, if there is one, and the depth is lowered. -/
def closeBranch (w : Walk R G S) : Walk R G S × Except NumericFault (Pose R) :=
  ({ w with stack := w.stack.tail }, (closed (w.stack.head?.getD w.pose)).kept?)

/-- A walk that goes on from the pose found, unless there is none. -/
def goOn : Walk R G S × Except NumericFault (Pose R) → Walk R G S × Except NumericFault (Option (Branch R))
  | (w, .ok pose) => ({ w with pose }, .ok none)
  | (w, .error fault) => (w, .error fault)

/-- One symbol: the walk after it, and the segment it drew, if it drew one. -/
def step (t : Turtle R G S) (w : Walk R G S) (c : Char) : Walk R G S × Except NumericFault (Option (Branch R)) :=
  match c with
  | 'F' =>
    let (w, drawn) := t.forward w
    (w, drawn.map some)
  | '+' => goOn (t.turn w 1.0)
  | '-' => goOn (t.turn w (-1.0))
  | '[' => goOn (t.openBranch w)
  | ']' => goOn (closeBranch w)
  | _ => (w, .ok none)

/-! ## Words -/

/-- A word read after branches drawn so far, the last one first. Reading stops at the first failure. -/
def runAfter (t : Turtle R G S) (drawn : List (Branch R)) (w : Walk R G S) :
    Word → Walk R G S × Except NumericFault (List (Branch R))
  | [] => (w, .ok drawn.reverse)
  | c :: rest =>
    match t.step w c with
    | (w, .error fault) => (w, .error fault)
    | (w, .ok none) => t.runAfter drawn w rest
    | (w, .ok (some b)) => t.runAfter (b :: drawn) w rest

/-- A word read from a walk: the walk after it, and the branches drawn, in order. -/
def run (t : Turtle R G S) (w : Walk R G S) (word : Word) : Walk R G S × Except NumericFault (List (Branch R)) :=
  t.runAfter [] w word

/-- A word read from the origin with an empty stack. -/
def interpret (t : Turtle R G S) (gen : G) (sampler : S) (word : Word) :
    Walk R G S × Except NumericFault (List (Branch R)) :=
  t.run (t.start gen sampler) word

/-- Branches drawn before come first. -/
theorem runAfter_eq (t : Turtle R G S) (drawn : List (Branch R)) (w : Walk R G S) (word : Word) :
    t.runAfter drawn w word = ((t.run w word).1, (t.run w word).2.map (drawn.reverse ++ ·)) := by
  induction word generalizing drawn w with
  | nil => simp [run, runAfter, Except.map]
  | cons c rest ih =>
    unfold run
    rw [runAfter, runAfter]
    match t.step w c with
    | (w', .error fault) => rfl
    | (w', .ok none) => exact ih drawn w'
    | (w', .ok (some b)) =>
      simp only [ih (b :: drawn) w', ih [b] w', List.reverse_cons, List.reverse_nil, List.nil_append]
      cases (t.run w' rest).2 <;> simp [Except.map]

@[simp] theorem run_nil (t : Turtle R G S) (w : Walk R G S) : t.run w [] = (w, .ok []) := rfl

/-- A word is read symbol by symbol, and the branches of the first symbol come first. -/
theorem run_cons (t : Turtle R G S) (w : Walk R G S) (c : Char) (rest : Word) :
    t.run w (c :: rest) =
      match t.step w c with
      | (w', .error fault) => (w', .error fault)
      | (w', .ok b) => ((t.run w' rest).1, (t.run w' rest).2.map (b.toList ++ ·)) := by
  rw [run, runAfter]
  match t.step w c with
  | (w', .error fault) => rfl
  | (w', .ok none) =>
    show t.runAfter [] w' rest = _
    rw [runAfter_eq]; rfl
  | (w', .ok (some b)) =>
    show t.runAfter [b] w' rest = _
    rw [runAfter_eq]; rfl

end Turtle

end TurtlePlant
