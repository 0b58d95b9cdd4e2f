import Mathlib.Algebra.Order.Archimedean.Real.Basic
import Mathlib.Analysis.SpecialFunctions.Trigonometric.Inverse
import TurtlePlant.Scalar

/-!
# Exact numbers

The real numbers are a `Scalar`. None of them is infinite, none is lost, and all are stored as they are, so what refuses
a calculation is a division by zero alone: `kept?`, `sine?` and `settle` do nothing (`kept?_eq`, `sine?_eq`), and
`divide?` divides (`divide?_eq`).

Modules on exact numbers import this one before those of the turtle, so that all of them find the operations of the real
numbers in one order.
-/

namespace TurtlePlant

open Classical in
noncomputable instance : Arith ℝ where
  beq x y := decide (x = y)
  decLt := inferInstance
  decLe := inferInstance
  ofInt n := n
  heldInt? _ := none
  settle x := x
  isLost _ := false
  floor x := ⌊x⌋
  fract x := Int.fract x

noncomputable instance : Scalar ℝ where
  sqrt := Real.sqrt
  sin := Real.sin
  cos := Real.cos
  acos := Real.arccos
  pi := Real.pi
  isInfinite _ := false

namespace Exact

theorem ok_bind {ε α β : Type} (a : α) (f : α → Except ε β) : (Except.ok a >>= f) = f a := rfl

@[simp] theorem beq_iff (x y : ℝ) : @BEq.beq ℝ Arith.toBEq x y = true ↔ x = y := decide_eq_true_iff

theorem zero_eq : (0.0 : ℝ) = 0 := by norm_num

theorem one_eq : (1.0 : ℝ) = 1 := by norm_num

theorem two_eq : (2.0 : ℝ) = 2 := by norm_num

@[simp] theorem kept?_eq (x : ℝ) : kept? x = .ok x := rfl

@[simp] theorem sine?_eq (x : ℝ) : sine? x = .ok (Real.sin x) := rfl

theorem lower_eq (a b : ℝ) : lower a b = min a b := by
  unfold lower
  split_ifs with h
  · exact (min_eq_right h.le).symm
  · exact (min_eq_left (not_lt.mp h)).symm

theorem upper_eq (a b : ℝ) : upper a b = max a b := by
  unfold upper
  split_ifs with h
  · exact (max_eq_right h.le).symm
  · exact (max_eq_left (not_lt.mp h)).symm

theorem clip_of_mem {lo hi x : ℝ} (h : x ∈ Set.Icc lo hi) : clip lo hi x = x := by
  unfold clip
  rw [if_neg h.1.not_gt, if_neg h.2.not_gt]

/-- Nothing but zero refuses to divide. -/
theorem divide?_eq {a b : ℝ} (hb : b ≠ 0) : divide? a b = .ok (a / b) := by
  have h0 : ¬ (@BEq.beq ℝ Arith.toBEq b 0.0 = true) := by
    rw [beq_iff]
    norm_num [hb]
  unfold divide?
  rw [if_neg h0]; rfl

end Exact

end TurtlePlant
