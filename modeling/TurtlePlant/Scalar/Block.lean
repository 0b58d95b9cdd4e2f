import TurtlePlant.Scalar

/-!
# Blocks

Numbers that are kept side by side make a block, and a block has one form: integers of 64 bits if that holds them all,
with a sign or without one, and machine numbers otherwise. A block with an integer of more bits in it keeps every number
as it is given.

- `Block.form`: the form of some numbers;
- `BlockForm.join`: the form that two blocks are brought to when they meet;
- `BlockForm.combine`: an operation on blocks, number by number. Integers of 64 bits stay so, and what goes beyond the
  last of them starts again at the first.

Where no integers are held in place of numbers, every block is one of machine numbers and `combine f` is `f`.
-/

namespace TurtlePlant

/-- How many integers of 64 bits there are. -/
def wordCount : Nat := 18446744073709551616

/-- The form of the numbers of a block. -/
inductive BlockForm where
  /-- Integers of 64 bits, from `-2⁶³` on. -/
  | signed
  /-- Integers of 64 bits, from zero on. -/
  | unsigned
  | machine
  | mixed
  deriving DecidableEq, Repr

namespace BlockForm

/-- The form that two blocks are brought to when they meet. -/
def join : BlockForm → BlockForm → BlockForm
  | mixed, _ | _, mixed => mixed
  | signed, signed => signed
  | unsigned, unsigned => unsigned
  | _, _ => machine

/-- The least integer of a form and the first one beyond it, for a form that has only some. -/
def range? : BlockForm → Option (Int × Int)
  | signed => some (-(wordCount / 2 : Nat), (wordCount / 2 : Nat))
  | unsigned => some (0, (wordCount : Nat))
  | _ => none

/-- Whether an integer can be held in a form. -/
def holds (f : BlockForm) (n : Int) : Bool :=
  match f.range? with
  | none => true
  | some (least, beyond) => least ≤ n && n < beyond

/-- The form of an integer by itself. -/
def ofInt (n : Int) : BlockForm := if signed.holds n then signed else if unsigned.holds n then unsigned else mixed

/-- The integer of a form that differs from a given one by a multiple of `wordCount`. -/
def wrap : BlockForm → Int → Int
  | signed, n => n.bmod wordCount
  | unsigned, n => n % wordCount
  | _, n => n

variable {R : Type} [Arith R]

/-- The form of a number by itself. -/
def ofNumber (x : R) : BlockForm := ((Arith.heldInt? x).map ofInt).getD machine

/-- A number of a block of some form. -/
def hold (f : BlockForm) (x : R) : R := if f = machine then Arith.settle x else x

/-- What an operation on a block of some form gives. -/
def keep (f : BlockForm) (x : R) : R :=
  match f, Arith.heldInt? x with
  | signed, some n | unsigned, some n => Arith.ofInt (f.wrap n)
  | _, _ => x

/-- An operation on a number of one block and one of another block. -/
def combine (op : R → R → R) (f g : BlockForm) (x y : R) : R :=
  let h := f.join g
  h.keep (op (h.hold (f.hold x)) (h.hold (g.hold y)))

/-- A number of a block multiplied by an integer that the form holds. -/
def multiple (f : BlockForm) (n : Int) (x : R) : R := f.keep (f.hold x * Arith.ofInt n)

/-- A number in the form in which it multiplies a block. An integer has to fit among the integers of the block. -/
def factor? (f : BlockForm) (k : R) : Except NumericFault R :=
  match Arith.heldInt? k with
  | none => .ok k
  | some n => if f.holds n then .ok k else .error .integerTooLarge

/-- The lower of two numbers of a block. Among numbers as they are given it is the first one if it compares so, and
otherwise it is no number if one of them is none. -/
def low (f : BlockForm) (x y : R) : R := if f = mixed then if x ≤ y then x else y else strictLower x y

/-- The upper of two numbers of a block, found in the way of `low`. -/
def high (f : BlockForm) (x y : R) : R := if f = mixed then if y ≤ x then x else y else strictUpper x y

/-- Where numbers are stored as they are and none is an integer in place of a number, an operation on blocks of machine
numbers is the operation itself. -/
theorem combine_machine {R : Type} [Arith R] (stored : ∀ x : R, Arith.settle x = x)
    (plain : ∀ x : R, Arith.heldInt? x = none) (op : R → R → R) : combine op machine machine = op := by
  funext x y
  simp [combine, join, hold, keep, stored, plain]

end BlockForm

/-- A number, unless it is an integer of more than 64 bits. -/
def narrow? {R : Type} [Arith R] (x : R) : Except NumericFault R :=
  if BlockForm.ofNumber x = .mixed then .error .integerTooWide else .ok x

/-- The form of some numbers side by side. -/
def Block.form {R : Type} [Arith R] : List R → BlockForm
  | [] => .machine
  | x :: xs => xs.foldl (fun f y => f.join (.ofNumber y)) (.ofNumber x)

/-- Numbers none of which is an integer in place of one make a block of machine numbers. -/
theorem Block.form_of_forall {R : Type} [Arith R] {xs : List R} (plain : ∀ x ∈ xs, Arith.heldInt? x = none) :
    Block.form xs = .machine := by
  have number : ∀ x ∈ xs, BlockForm.ofNumber x = .machine := fun x hx => by simp [BlockForm.ofNumber, plain x hx]
  have fold : ∀ ys : List R, (∀ y ∈ ys, BlockForm.ofNumber y = .machine) →
      ys.foldl (fun f y => f.join (.ofNumber y)) BlockForm.machine = .machine := fun ys hys => by
    induction ys with
    | nil => rfl
    | cons y ys ih =>
      rw [List.foldl_cons, hys y List.mem_cons_self]
      exact ih fun z hz => hys z (List.mem_cons_of_mem y hz)
  cases xs with
  | nil => rfl
  | cons x xs =>
    rw [Block.form, number x List.mem_cons_self]
    exact fold xs fun y hy => number y (List.mem_cons_of_mem x hy)

/-- Where no integer is held in place of a number, blocks are of machine numbers. -/
theorem Block.form_eq_machine {R : Type} [Arith R] (plain : ∀ x : R, Arith.heldInt? x = none) (xs : List R) :
    Block.form xs = .machine :=
  form_of_forall fun x _ => plain x

end TurtlePlant
