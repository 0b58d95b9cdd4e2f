import TurtlePlant.Number
import TurtlePlant.Word
import TurtlePlant.Text.Quoted

/-!
# Plant grammars

A grammar is a start word with its rules, the number of generations, and the sizes, angles and jitter widths that the
turtle starts from. It is asked for as a `Draft`, whose rule keys may be anything, and `Draft.check` accepts a draft or
tells the first thing wrong with it.

- `Draft.faults`: everything wrong with a draft, in the order in which it is looked for;
- `Draft.check`: the grammar of a draft without faults (`check_eq_ok_iff`), or its first fault;
- `Grammar.expand?`: the word that is drawn, refused when the number of generations is no integer;
- `Settings`: the part of a draft that is given, the rest being taken from another draft (`Settings.over`).

A setting is refused by a test that it fails, so a value that compares with nothing passes.
-/

namespace TurtlePlant

/-- The two sign tests that settings are checked by. -/
class Signed (N : Type) where
  nonPositive : N → Bool
  negative : N → Bool

instance {R : Type} [Arith R] : Signed R where
  nonPositive x := decide (x ≤ 0.0)
  negative x := decide (x < 0.0)

instance : Signed Number where
  nonPositive
    | .int n => decide (n ≤ 0)
    | .float x => decide (x ≤ 0.0)
  negative
    | .int n => decide (n < 0)
    | .float x => decide (x < 0.0)

/-! ## Drafts -/

/-- What a production is asked for. Only a text can be good. -/
inductive RuleKey where
  /-- A text, good if it is one symbol. -/
  | text (s : String)
  /-- An integer. -/
  | number (n : Int)
  /-- Anything else, by what messages show of it. -/
  | other (shown : String)
  deriving DecidableEq, Repr

namespace RuleKey

/-- The symbol of a key that is one symbol. -/
def symbol? : RuleKey → Option Char
  | text s => match s.toList with
    | [c] => some c
    | _ => none
  | number _ | other _ => none

/-- A key as a message shows it. -/
def display : RuleKey → String
  | text s => Text.quote s
  | number n => toString n
  | other shown => shown

end RuleKey

/-- The productions whose keys are symbols; the others apply to nothing. -/
def Rules.ofKeys (es : List (RuleKey × Word)) : Rules :=
  .ofList (es.filterMap fun e => e.1.symbol?.map fun c => (c, e.2))

/-- A grammar as it is asked for, with numbers of a type `N`. -/
structure Draft (N : Type) where
  start : Word
  rules : List (RuleKey × Word)
  angle : N
  length : N
  iterations : Number
  lengthVariation : N
  angleVariation : N
  radius : N
  /-- What length and radius are multiplied by when a branch opens. -/
  branchScale : N
  branchJitter : N
  taper : N
  description : String

/-- The settings that must be above zero. -/
inductive Size where
  | length | radius | branchScale | taper
  deriving DecidableEq, Repr

/-- The settings that must not be below zero. -/
inductive Jitter where
  | lengthVariation | angleVariation | branchJitter
  deriving DecidableEq, Repr

/-- The name of a size in messages. -/
def Size.name : Size → String
  | length => "length"
  | radius => "radius"
  | branchScale => "branch_scale"
  | taper => "taper"

/-- The name of a jitter width in messages. -/
def Jitter.name : Jitter → String
  | lengthVariation => "length_variation"
  | angleVariation => "angle_variation"
  | branchJitter => "branch_jitter"

/-- What can be wrong with a draft. -/
inductive DraftFault (N : Type) where
  | badKey (key : RuleKey)
  | negativeIterations (n : Number)
  | notPositive (size : Size) (value : N)
  | belowZero (jitter : Jitter) (value : N)

/-- The message of a fault, with numbers written by `write`. -/
def DraftFault.message {N : Type} (write : N → String) : DraftFault N → String
  | badKey key => "Rule keys must be single symbols, got " ++ key.display
  | negativeIterations n => "iterations must be >= 0, got " ++ n.text
  | notPositive size x => size.name ++ " must be > 0, got " ++ write x
  | belowZero jitter x => jitter.name ++ " must be >= 0, got " ++ write x

namespace Draft

variable {N : Type}

/-- The value of a size. -/
def size (d : Draft N) : Size → N
  | .length => d.length
  | .radius => d.radius
  | .branchScale => d.branchScale
  | .taper => d.taper

/-- The width of a jitter. -/
def jitter (d : Draft N) : Jitter → N
  | .lengthVariation => d.lengthVariation
  | .angleVariation => d.angleVariation
  | .branchJitter => d.branchJitter

/-- The sizes in the order in which they are checked. -/
def sizes : List Size := [.length, .radius, .branchScale, .taper]

/-- The jitter widths in the order in which they are checked. -/
def jitters : List Jitter := [.lengthVariation, .angleVariation, .branchJitter]

/-- The keys that are not one symbol. -/
def badKeys (d : Draft N) : List RuleKey := (d.rules.map Prod.fst).filter fun k => k.symbol?.isNone

/-- Everything wrong with a draft: its keys in rule order, its generations, its sizes, its jitter widths. -/
def faults [Signed N] (d : Draft N) : List (DraftFault N) :=
  d.badKeys.map .badKey ++
  (if Signed.negative d.iterations then [.negativeIterations d.iterations] else []) ++
  (sizes.filter fun s => Signed.nonPositive (d.size s)).map (fun s => .notPositive s (d.size s)) ++
  (jitters.filter fun j => Signed.negative (d.jitter j)).map (fun j => .belowZero j (d.jitter j))

end Draft

/-! ## Grammars -/

/-- The configuration of a plant: what is expanded, and what the turtle starts from. -/
structure Grammar (R : Type) where
  start : Word
  rules : Rules
  angle : R
  length : R
  /-- The number of generations. A decimal is accepted, although nothing can be expanded by it. -/
  iterations : Number
  lengthVariation : R
  angleVariation : R
  radius : R
  branchScale : R
  branchJitter : R
  taper : R
  description : String

namespace Grammar

/-- The same grammar with its numbers converted. -/
def map {R S : Type} (f : R → S) (g : Grammar R) : Grammar S where
  start := g.start
  rules := g.rules
  angle := f g.angle
  length := f g.length
  iterations := g.iterations
  lengthVariation := f g.lengthVariation
  angleVariation := f g.angleVariation
  radius := f g.radius
  branchScale := f g.branchScale
  branchJitter := f g.branchJitter
  taper := f g.taper
  description := g.description

/-- The start word after `n` generations; none are made for a negative `n`. -/
def expandTo {R : Type} (g : Grammar R) (n : Int) : Word := g.rules.expand n.toNat g.start

/-- The start word after the grammar's own number of generations. -/
def expand? {R : Type} (g : Grammar R) : Except NumericFault Word := g.iterations.integer?.map g.expandTo

end Grammar

namespace Draft

variable {N : Type}

/-- The grammar that a draft asks for. -/
def grammar (d : Draft N) : Grammar N where
  start := d.start
  rules := .ofKeys d.rules
  angle := d.angle
  length := d.length
  iterations := d.iterations
  lengthVariation := d.lengthVariation
  angleVariation := d.angleVariation
  radius := d.radius
  branchScale := d.branchScale
  branchJitter := d.branchJitter
  taper := d.taper
  description := d.description

/-- The grammar of a draft, or the first thing wrong with it. -/
def check [Signed N] (d : Draft N) : Except (DraftFault N) (Grammar N) :=
  match d.faults with
  | [] => .ok d.grammar
  | fault :: _ => .error fault

/-- A draft is accepted, as the grammar it asks for, when nothing is wrong with it. -/
theorem check_eq_ok_iff [Signed N] {d : Draft N} {g : Grammar N} :
    d.check = .ok g ↔ d.faults = [] ∧ d.grammar = g := by
  unfold check
  split <;> simp_all

end Draft

/-! ## Settings -/

/-- The part of a draft that is given, field by field. -/
structure Settings (N : Type) where
  start : Option Word := none
  rules : Option (List (RuleKey × Word)) := none
  angle : Option N := none
  length : Option N := none
  iterations : Option Number := none
  lengthVariation : Option N := none
  angleVariation : Option N := none
  radius : Option N := none
  branchScale : Option N := none
  branchJitter : Option N := none
  taper : Option N := none
  description : Option String := none

/-- The settings that are given, over a draft that supplies the others. -/
def Settings.over {N : Type} (s : Settings N) (d : Draft N) : Draft N where
  start := s.start.getD d.start
  rules := s.rules.getD d.rules
  angle := s.angle.getD d.angle
  length := s.length.getD d.length
  iterations := s.iterations.getD d.iterations
  lengthVariation := s.lengthVariation.getD d.lengthVariation
  angleVariation := s.angleVariation.getD d.angleVariation
  radius := s.radius.getD d.radius
  branchScale := s.branchScale.getD d.branchScale
  branchJitter := s.branchJitter.getD d.branchJitter
  taper := s.taper.getD d.taper
  description := s.description.getD d.description

end TurtlePlant
