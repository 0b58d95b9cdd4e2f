import TurtlePlant.Proofs.BarkColour

/-!
# The gradient of bark colours

On exact numbers each part of a bark colour is that of the trunk, and what is added on two stretches of depth one after the
other (`part_barkGradient`): up to the depth of a branch, and from there to that of a twig. What a depth has covered of a
stretch (`stretch`) grows no faster than the depth, and two stretches that meet are covered one after the other
(`stretch_add_stretch`), so the steeper of the two bounds how fast the whole changes, also from one stretch to the other
(`abs_part_sub_le`).

Red grows all the way, which is why each of the three colours is found on no other depths than its own
(`gradient_without_jump`).
-/

namespace TurtlePlant

/-- The parts of a colour. -/
inductive Rgb.Part where
  | red | green | blue
  deriving DecidableEq

/-- A part of a colour. -/
def Rgb.part {R : Type} (c : Rgb R) : Part → R
  | .red => c.red
  | .green => c.green
  | .blue => c.blue

namespace Exact

/-! ## Stretches -/

/-- How much of the stretch from `lo` to `hi` is covered at `x`. -/
noncomputable def stretch (lo hi x : ℝ) : ℝ := min (max x lo) hi - lo

section Stretch

variable {lo mid hi x y : ℝ}

theorem stretch_mem (h : lo ≤ hi) (x : ℝ) : stretch lo hi x ∈ Set.Icc 0 (hi - lo) :=
  ⟨sub_nonneg.mpr (le_min (le_max_right x lo) h), sub_le_sub_right (min_le_right _ hi) lo⟩

theorem stretch_of_le (h : lo ≤ hi) (hx : x ≤ lo) : stretch lo hi x = 0 := by
  rw [stretch, max_eq_right hx, min_eq_left h, sub_self]

theorem stretch_of_ge (h : lo ≤ hi) (hx : hi ≤ x) : stretch lo hi x = hi - lo := by
  rw [stretch, max_eq_left (h.trans hx), min_eq_right hx]

theorem stretch_pos (h : lo < hi) (hx : lo < x) : 0 < stretch lo hi x :=
  sub_pos.mpr (lt_min (lt_max_of_lt_left hx) h)

theorem stretch_lt (h : lo < hi) (hx : x < hi) : stretch lo hi x < hi - lo :=
  sub_lt_sub_right ((min_le_left _ hi).trans_lt (max_lt hx h)) lo

theorem stretch_mono (h : x ≤ y) : stretch lo hi x ≤ stretch lo hi y :=
  sub_le_sub_right (min_le_min_right hi (max_le_max_right lo h)) lo

/-- No more is covered than there is in between. -/
theorem stretch_sub_le (h : x ≤ y) : stretch lo hi y - stretch lo hi x ≤ y - x := by
  have hmin := abs_min_sub_min_le_max (max y lo) hi (max x lo) hi
  have hmax := abs_max_sub_max_le_max y lo x lo
  rw [sub_self, abs_zero, max_eq_left (abs_nonneg (max y lo - max x lo))] at hmin
  rw [sub_self, abs_zero, max_eq_left (abs_nonneg (y - x))] at hmax
  calc stretch lo hi y - stretch lo hi x = min (max y lo) hi - min (max x lo) hi := by
        rw [stretch, stretch, sub_sub_sub_cancel_right]
    _ ≤ |min (max y lo) hi - min (max x lo) hi| := le_abs_self _
    _ ≤ |y - x| := hmin.trans hmax
    _ = y - x := abs_of_nonneg (sub_nonneg.mpr h)

/-- Two stretches that meet are covered one after the other. -/
theorem stretch_add_stretch (h : lo ≤ mid) (h' : mid ≤ hi) (x : ℝ) :
    stretch lo mid x + stretch mid hi x = stretch lo hi x := by
  rcases le_total x mid with hx | hx
  · rw [stretch_of_le h' hx, add_zero, stretch, stretch, min_eq_left (max_le hx h),
      min_eq_left ((max_le hx h).trans h')]
  · rw [stretch_of_ge h hx, stretch, stretch, max_eq_left hx, max_eq_left (h.trans hx)]
    ring

end Stretch

/-! ## Parts by depth -/

theorem twigDepth_eq : (twigDepth : ℝ) = 5 := by norm_num [twigDepth]

/-- The depth at which the trunk has become a branch. -/
theorem twigDepth_mul_gradientSplit : (twigDepth * gradientSplit : ℝ) = 3 / 2 := by
  norm_num [twigDepth, gradientSplit]

theorem part_lerp (a b : Rgb ℝ) (t : ℝ) (p : Rgb.Part) : (a.lerp b t).part p = a.part p + (b.part p - a.part p) * t := by
  have hlerp : ∀ u v : ℝ, lerp u v t = u + (v - u) * t := by
    intro u v
    unfold lerp
    rw [one_eq]
    ring
  cases p <;> exact hlerp _ _

/-- **A part of a bark colour** is that of the trunk with what is added on each stretch of depth. -/
theorem part_barkGradient (x : ℝ) (p : Rgb.Part) : (barkGradient x).part p =
    trunkColour.part p + (branchColour.part p - trunkColour.part p) / (3 / 2) * stretch 0 (3 / 2) x +
      (twigColour.part p - branchColour.part p) / (7 / 2) * stretch (3 / 2) 5 x := by
  have h3 : (gradientSplit : ℝ) = 3 / 10 := by norm_num [gradientSplit]
  have hclamp : min (max x 0) 5 = stretch 0 (3 / 2) x + stretch (3 / 2) 5 x := by
    rw [stretch_add_stretch (by norm_num) (by norm_num), stretch, sub_zero]
  unfold barkGradient
  simp only [lower_eq, upper_eq, zero_eq, one_eq, twigDepth_eq, h3, hclamp]
  rcases lt_or_ge x (3 / 2) with hx | hx
  · have hsecond : stretch (3 / 2) 5 x = 0 := stretch_of_le (by norm_num) hx.le
    have hfirst : stretch 0 (3 / 2) x < 3 / 2 - 0 := stretch_lt (by norm_num) hx
    rw [hsecond, if_pos (by linarith), part_lerp]
    ring
  · have hfirst : stretch 0 (3 / 2) x = 3 / 2 := by rw [stretch_of_ge (by norm_num) hx, sub_zero]
    have hsecond : 0 ≤ stretch (3 / 2) 5 x := (stretch_mem (by norm_num) x).1
    rw [hfirst, if_neg (by linarith), part_lerp]
    ring

/-! The three colours, as bytes over 255. -/

theorem ofBytes_eq (r g b : ℕ) : (Rgb.ofBytes r g b : Rgb ℝ) = ⟨r / 255, g / 255, b / 255⟩ := by
  have hbyte : ∀ n : ℕ, (Arith.ofInt (n : ℤ) / 255.0 : ℝ) = n / 255 := by
    intro n
    have hn : (Arith.ofInt (n : ℤ) : ℝ) = n := Int.cast_natCast n
    rw [hn]
    norm_num
  rw [Rgb.ofBytes, hbyte, hbyte, hbyte]

theorem trunkColour_eq : (trunkColour : Rgb ℝ) = ⟨139 / 255, 69 / 255, 19 / 255⟩ := ofBytes_eq 139 69 19

theorem branchColour_eq : (branchColour : Rgb ℝ) = ⟨205 / 255, 133 / 255, 63 / 255⟩ := ofBytes_eq 205 133 63

theorem twigColour_eq : (twigColour : Rgb ℝ) = ⟨210 / 255, 105 / 255, 30 / 255⟩ := ofBytes_eq 210 105 30

/-- No part changes faster on either stretch than red on the first one. -/
theorem slope_le (p : Rgb.Part) :
    |(branchColour.part p - trunkColour.part p : ℝ) / (3 / 2)| ≤ 44 / 255 ∧
      |(twigColour.part p - branchColour.part p : ℝ) / (7 / 2)| ≤ 44 / 255 := by
  rw [trunkColour_eq, branchColour_eq, twigColour_eq]
  cases p <;> norm_num [Rgb.part, abs_le]

/-! ## No jump -/

/-- **The steeper stretch bounds the whole way.** -/
theorem abs_part_sub_le (x y : ℝ) (p : Rgb.Part) :
    |(barkGradient x).part p - (barkGradient y).part p| ≤ 44 / 255 * |x - y| := by
  wlog h : y ≤ x generalizing x y
  · rw [abs_sub_comm, abs_sub_comm x]
    exact this y x (le_of_not_ge h)
  obtain ⟨hfirst, hsecond⟩ := slope_le p
  rw [part_barkGradient, part_barkGradient]
  generalize (branchColour.part p - trunkColour.part p : ℝ) / (3 / 2) = k at hfirst ⊢
  generalize (twigColour.part p - branchColour.part p : ℝ) / (7 / 2) = l at hsecond ⊢
  have hcover : (stretch 0 (3 / 2) x - stretch 0 (3 / 2) y) + (stretch (3 / 2) 5 x - stretch (3 / 2) 5 y) ≤ x - y := by
    have hall : stretch 0 5 x - stretch 0 5 y ≤ x - y := stretch_sub_le h
    rw [← stretch_add_stretch (by norm_num : (0 : ℝ) ≤ 3 / 2) (by norm_num) x,
      ← stretch_add_stretch (by norm_num : (0 : ℝ) ≤ 3 / 2) (by norm_num) y] at hall
    linarith
  have hcover₁ : 0 ≤ stretch 0 (3 / 2) x - stretch 0 (3 / 2) y := sub_nonneg.mpr (stretch_mono h)
  have hcover₂ : 0 ≤ stretch (3 / 2) 5 x - stretch (3 / 2) 5 y := sub_nonneg.mpr (stretch_mono h)
  rw [abs_of_nonneg (sub_nonneg.mpr h)]
  calc |trunkColour.part p + k * stretch 0 (3 / 2) x + l * stretch (3 / 2) 5 x -
        (trunkColour.part p + k * stretch 0 (3 / 2) y + l * stretch (3 / 2) 5 y)|
      = |k * (stretch 0 (3 / 2) x - stretch 0 (3 / 2) y) + l * (stretch (3 / 2) 5 x - stretch (3 / 2) 5 y)| := by
        congr 1
        ring
    _ ≤ |k| * (stretch 0 (3 / 2) x - stretch 0 (3 / 2) y) + |l| * (stretch (3 / 2) 5 x - stretch (3 / 2) 5 y) := by
        refine (abs_add_le _ _).trans_eq ?_
        rw [abs_mul, abs_mul, abs_of_nonneg hcover₁, abs_of_nonneg hcover₂]
    _ ≤ 44 / 255 * (stretch 0 (3 / 2) x - stretch 0 (3 / 2) y) +
        44 / 255 * (stretch (3 / 2) 5 x - stretch (3 / 2) 5 y) := by gcongr
    _ ≤ 44 / 255 * (x - y) := by
        rw [← mul_add]
        gcongr

/-! ## Between the three colours -/

/-- A point on the way from one number to another. -/
theorem mix_mem_between (a b : ℝ) {t : ℝ} (ht : t ∈ Set.Icc (0 : ℝ) 1) :
    a + (b - a) * t ∈ Set.Icc (min a b) (max a b) := by
  rcases le_total a b with h | h
  · rw [min_eq_left h, max_eq_right h]
    exact mix_mem h ht
  · rw [min_eq_right h, max_eq_left h, show a + (b - a) * t = b + (a - b) * (1 - t) by ring]
    exact mix_mem h ⟨sub_nonneg.mpr ht.2, sub_le_self 1 ht.1⟩

/-- Each part stays between those of the three colours. -/
theorem part_mem (x : ℝ) (p : Rgb.Part) : (barkGradient x).part p ∈
    Set.Icc (min (min (trunkColour.part p) (branchColour.part p)) (twigColour.part p))
      (max (max (trunkColour.part p) (branchColour.part p)) (twigColour.part p)) := by
  rw [part_barkGradient]
  generalize (trunkColour.part p : ℝ) = a
  generalize (branchColour.part p : ℝ) = b
  generalize (twigColour.part p : ℝ) = c
  rcases le_total x (3 / 2) with hx | hx
  · have hfirst := stretch_mem (by norm_num : (0 : ℝ) ≤ 3 / 2) x
    have hmix := mix_mem_between a b (t := stretch 0 (3 / 2) x / (3 / 2))
      ⟨div_nonneg hfirst.1 (by norm_num), (div_le_one (by norm_num)).mpr (by linarith [hfirst.2])⟩
    rw [stretch_of_le (by norm_num) hx, mul_zero, add_zero, div_mul_eq_mul_div, mul_div_assoc]
    exact ⟨(min_le_left _ c).trans hmix.1, hmix.2.trans (le_max_left _ c)⟩
  · have hsecond := stretch_mem (by norm_num : (3 / 2 : ℝ) ≤ 5) x
    have hmix := mix_mem_between b c (t := stretch (3 / 2) 5 x / (7 / 2))
      ⟨div_nonneg hsecond.1 (by norm_num), (div_le_one (by norm_num)).mpr (by linarith [hsecond.2])⟩
    have hfirst : a + (b - a) / (3 / 2) * stretch 0 (3 / 2) x = b := by
      rw [stretch_of_ge (by norm_num) hx, sub_zero, div_mul_cancel₀ _ (by norm_num), add_sub_cancel]
    rw [hfirst, div_mul_eq_mul_div, mul_div_assoc]
    exact ⟨(min_le_min_right c (min_le_right a b)).trans hmix.1, hmix.2.trans (max_le_max_right c (le_max_right a b))⟩

/-! ## Where the three colours are -/

/-- Colours with the same parts are the same. -/
theorem ext_part {c d : Rgb ℝ} (h : ∀ p, c.part p = d.part p) : c = d := by
  obtain ⟨r, g, b⟩ := c
  obtain ⟨r', g', b'⟩ := d
  obtain rfl : r = r' := h .red
  obtain rfl : g = g' := h .green
  obtain rfl : b = b' := h .blue
  rfl

/-- Red grows on both stretches. -/
theorem red_barkGradient (x : ℝ) : (barkGradient x).red =
    139 / 255 + 44 / 255 * stretch 0 (3 / 2) x + 2 / 357 * stretch (3 / 2) 5 x := by
  have h := part_barkGradient x .red
  rw [trunkColour_eq, branchColour_eq, twigColour_eq] at h
  norm_num [Rgb.part] at h
  exact h

theorem barkGradient_eq_trunk_iff {x : ℝ} : barkGradient x = trunkColour ↔ x ≤ 0 := by
  constructor
  · intro h
    have hred := red_barkGradient x
    rw [h, trunkColour_eq] at hred
    by_contra hx
    have hfirst := stretch_pos (by norm_num : (0 : ℝ) < 3 / 2) (not_le.mp hx)
    have hsecond := (stretch_mem (by norm_num : (3 / 2 : ℝ) ≤ 5) x).1
    linarith
  · intro hx
    refine ext_part fun p => ?_
    rw [part_barkGradient, stretch_of_le (by norm_num) hx, stretch_of_le (by norm_num) (hx.trans (by norm_num)),
      mul_zero, mul_zero, add_zero, add_zero]

theorem barkGradient_eq_branch_iff {x : ℝ} : barkGradient x = branchColour ↔ x = 3 / 2 := by
  constructor
  · intro h
    have hred := red_barkGradient x
    rw [h, branchColour_eq] at hred
    rcases lt_trichotomy x (3 / 2) with hx | hx | hx
    · have hfirst := stretch_lt (by norm_num : (0 : ℝ) < 3 / 2) hx
      rw [stretch_of_le (by norm_num : (3 / 2 : ℝ) ≤ 5) hx.le] at hred
      linarith
    · exact hx
    · have hsecond := stretch_pos (by norm_num : (3 / 2 : ℝ) < 5) hx
      rw [stretch_of_ge (by norm_num : (0 : ℝ) ≤ 3 / 2) hx.le] at hred
      linarith
  · rintro rfl
    refine ext_part fun p => ?_
    rw [part_barkGradient, stretch_of_ge (by norm_num) le_rfl, stretch_of_le (by norm_num) le_rfl]
    ring

theorem barkGradient_eq_twig_iff {x : ℝ} : barkGradient x = twigColour ↔ 5 ≤ x := by
  constructor
  · intro h
    have hred := red_barkGradient x
    rw [h, twigColour_eq] at hred
    by_contra hx
    have hfirst := (stretch_mem (by norm_num : (0 : ℝ) ≤ 3 / 2) x).2
    have hsecond := stretch_lt (by norm_num : (3 / 2 : ℝ) < 5) (not_le.mp hx)
    linarith
  · intro hx
    refine ext_part fun p => ?_
    rw [part_barkGradient, stretch_of_ge (by norm_num) ((by norm_num : (3 / 2 : ℝ) ≤ 5).trans hx),
      stretch_of_ge (by norm_num) hx]
    ring

end Exact

open Exact in
/-- **The gradient has no jump**: no part of a colour changes by more than 44 bytes for each unit of depth, wherever the depths
lie. Each part stays between those of the three colours, and each of these is found just where it belongs: the trunk up to
depth zero, a branch where one stretch ends and the next begins, a twig from its depth on. -/
theorem gradient_without_jump :
    (∀ (x y : ℝ) (p : Rgb.Part), |(barkGradient x).part p - (barkGradient y).part p| ≤ 44 / 255 * |x - y|) ∧
      (∀ (x : ℝ) (p : Rgb.Part), (barkGradient x).part p ∈
        Set.Icc (min (min (trunkColour.part p) (branchColour.part p)) (twigColour.part p))
          (max (max (trunkColour.part p) (branchColour.part p)) (twigColour.part p))) ∧
      ∀ x : ℝ, (barkGradient x = trunkColour ↔ x ≤ 0) ∧
        (barkGradient x = branchColour ↔ x = twigDepth * gradientSplit) ∧
        (barkGradient x = twigColour ↔ twigDepth ≤ x) := by
  refine ⟨abs_part_sub_le, part_mem, fun x => ⟨barkGradient_eq_trunk_iff, ?_, ?_⟩⟩
  · rw [twigDepth_mul_gradientSplit]
    exact barkGradient_eq_branch_iff
  · rw [twigDepth_eq]
    exact barkGradient_eq_twig_iff

end TurtlePlant
