import TurtlePlant.Proofs.Exact
import TurtlePlant.Space.Rotation

/-!
# Exact rotations

On exact numbers the quaternion of a unit axis `a` and an angle `t` is `a · sin (t / 2)` with real part `cos (t / 2)`
(`ofRotationVector_scale`), also where the angle is zero or negative. What it does to a vector is told by the angle itself
(`rotate_ofRotationVector`): the vector goes round the axis by the right-hand rule, and what it has along the axis stays.

The length of the quaternion is one, and a quaternion of length one keeps scalar products (`dot_rotate`). A vector of any
length is brought to length one, or replaced (`norm_normalizeOr`), so a turn keeps scalar products and lengths about every
axis, even about one that is too short to have a direction (`dot_rotateAbout`, `norm_rotateAbout`).
-/

namespace TurtlePlant

/-! ## Lengths -/

namespace Vec3

theorem dot_eq (v w : Vec3 ℝ) : v.dot w = v.x * w.x + v.y * w.y + v.z * w.z := rfl

theorem norm_eq (v : Vec3 ℝ) : v.norm = √(v.dot v) := rfl

theorem add_eq (v w : Vec3 ℝ) : v + w = ⟨v.x + w.x, v.y + w.y, v.z + w.z⟩ := rfl

theorem dot_self_nonneg (v : Vec3 ℝ) : 0 ≤ v.dot v :=
  add_nonneg (add_nonneg (mul_self_nonneg v.x) (mul_self_nonneg v.y)) (mul_self_nonneg v.z)

theorem norm_eq_one_iff (v : Vec3 ℝ) : v.norm = 1 ↔ v.dot v = 1 := by
  rw [norm_eq, Real.sqrt_eq_one]

theorem norm_up : (up : Vec3 ℝ).norm = 1 := by
  rw [norm_eq_one_iff, dot_eq]
  norm_num [up]

theorem norm_scale (v : Vec3 ℝ) (k : ℝ) : (v.scale k).norm = v.norm * |k| := by
  have hdot : (v.scale k).dot (v.scale k) = v.dot v * k ^ 2 := by
    simp only [dot_eq, scale, map]
    ring
  rw [norm_eq, norm_eq, hdot, Real.sqrt_mul (dot_self_nonneg v), Real.sqrt_sq_eq_abs]

theorem add_sub_self (v w : Vec3 ℝ) : v + w - v = w := by
  have h : ∀ a b : ℝ, a + b - a = b := add_sub_cancel_left
  show Vec3.mk (v.x + w.x - v.x) (v.y + w.y - v.y) (v.z + w.z - v.z) = w
  rw [h, h, h]

theorem divide_eq_scale (v : Vec3 ℝ) (k : ℝ) : v.divide k = v.scale k⁻¹ := rfl

theorem norm_divide_norm {v : Vec3 ℝ} (h : 0 < v.norm) : (v.divide v.norm).norm = 1 := by
  rw [divide_eq_scale, norm_scale, abs_of_pos (inv_pos.mpr h), mul_inv_cancel₀ h.ne']

theorem leastLength_pos : 0 < (leastLength : ℝ) := by
  norm_num [leastLength]

/-- What has a direction is brought to length one, and what has none is replaced by something of that length. -/
theorem norm_normalizeOr (v : Vec3 ℝ) {fallback : Vec3 ℝ} (hf : fallback.norm = 1) :
    (v.normalizeOr fallback).norm = 1 := by
  unfold normalizeOr
  split_ifs with hv
  · exact hf
  · exact norm_divide_norm (leastLength_pos.trans_le (not_lt.mp hv))

theorem norm_normalize (v : Vec3 ℝ) : v.normalize.norm = 1 := norm_normalizeOr v norm_up

end Vec3

/-! ## Quaternions -/

namespace Quaternion

theorem norm_eq_one_iff (q : Quaternion ℝ) : q.norm = 1 ↔ q.x * q.x + q.y * q.y + q.z * q.z + q.w * q.w = 1 := by
  have h : q.norm = √(q.x * q.x + q.y * q.y + q.z * q.z + q.w * q.w) := rfl
  rw [h, Real.sqrt_eq_one]

/-- **A quaternion of length one keeps scalar products.** -/
theorem dot_rotate {q : Quaternion ℝ} (hq : q.norm = 1) (v w : Vec3 ℝ) : (q.rotate v).dot (q.rotate w) = v.dot w := by
  have hdot : (q.rotate v).dot (q.rotate w) =
      (q.x * q.x + q.y * q.y + q.z * q.z + q.w * q.w) ^ 2 * v.dot w := by
    simp only [rotate, Vec3.dot_eq, Exact.two_eq]
    ring
  rw [hdot, (norm_eq_one_iff q).mp hq, one_pow, one_mul]

/-- **The quaternion of a turn** by an angle about a unit axis. -/
theorem ofRotationVector_scale {a : Vec3 ℝ} (ha : a.norm = 1) (θ : ℝ) :
    ofRotationVector (a.scale θ) =
      ⟨a.x * Real.sin (θ / 2), a.y * Real.sin (θ / 2), a.z * Real.sin (θ / 2), Real.cos (θ / 2)⟩ := by
  have hlen : (a.scale θ).norm = |θ| := by rw [Vec3.norm_scale, ha, one_mul]
  have hcos : Real.cos (|θ| / 2) = Real.cos (θ / 2) := by
    rw [← Real.cos_abs (θ / 2), abs_div, abs_two]
  -- the sign of the angle goes into the length on one side and into the sine on the other
  have hsin : ∀ x : ℝ, x * θ * (if |θ| = 0 then 0.5 else Real.sin (|θ| / 2) / |θ|) = x * Real.sin (θ / 2) := by
    intro x
    rcases lt_trichotomy θ 0 with h | rfl | h
    · have hne : θ ≠ 0 := h.ne
      rw [if_neg (abs_pos.mpr hne).ne', abs_of_neg h, neg_div, Real.sin_neg, neg_div_neg_eq]
      field_simp
    · simp
    · have hne : θ ≠ 0 := h.ne'
      rw [if_neg (abs_pos.mpr hne).ne', abs_of_pos h]
      field_simp
  unfold ofRotationVector
  simp only [hlen, Exact.beq_iff, Exact.zero_eq, Exact.two_eq]
  rw [Quaternion.mk.injEq]
  exact ⟨hsin a.x, hsin a.y, hsin a.z, hcos⟩

theorem norm_ofRotationVector_scale {a : Vec3 ℝ} (ha : a.norm = 1) (θ : ℝ) :
    (ofRotationVector (a.scale θ)).norm = 1 := by
  have hdot : a.x * a.x + a.y * a.y + a.z * a.z = 1 := (Vec3.norm_eq_one_iff a).mp ha
  rw [ofRotationVector_scale ha, norm_eq_one_iff]
  calc a.x * Real.sin (θ / 2) * (a.x * Real.sin (θ / 2)) + a.y * Real.sin (θ / 2) * (a.y * Real.sin (θ / 2)) +
        a.z * Real.sin (θ / 2) * (a.z * Real.sin (θ / 2)) + Real.cos (θ / 2) * Real.cos (θ / 2)
      = (a.x * a.x + a.y * a.y + a.z * a.z) * Real.sin (θ / 2) ^ 2 + Real.cos (θ / 2) ^ 2 := by ring
    _ = 1 := by rw [hdot, one_mul, Real.sin_sq_add_cos_sq]

/-- **A turn about a unit axis**: the vector goes round by the angle, and what it has along the axis is made up for. -/
theorem rotate_ofRotationVector {a : Vec3 ℝ} (ha : a.norm = 1) (θ : ℝ) (v : Vec3 ℝ) :
    (ofRotationVector (a.scale θ)).rotate v =
      v.scale (Real.cos θ) + (a.cross v).scale (Real.sin θ) + a.scale (a.dot v * (1 - Real.cos θ)) := by
  have hdot : a.x * a.x + a.y * a.y + a.z * a.z = 1 := (Vec3.norm_eq_one_iff a).mp ha
  have hsin : Real.sin θ = 2 * Real.sin (θ / 2) * Real.cos (θ / 2) := by
    rw [← Real.sin_two_mul, mul_div_cancel₀ θ two_ne_zero]
  have hcos : Real.cos θ = Real.cos (θ / 2) ^ 2 - Real.sin (θ / 2) ^ 2 := by
    rw [← Real.cos_two_mul', mul_div_cancel₀ θ two_ne_zero]
  have hversine : 1 - Real.cos θ = 2 * Real.sin (θ / 2) ^ 2 := by
    rw [hcos]
    linear_combination -Real.sin_sq_add_cos_sq (θ / 2)
  rw [ofRotationVector_scale ha, hversine, hsin, hcos]
  simp only [rotate, Exact.two_eq, Vec3.add_eq, Vec3.scale, Vec3.map, Vec3.cross, Vec3.dot_eq, Vec3.mk.injEq]
  refine ⟨?_, ?_, ?_⟩
  · linear_combination -v.x * Real.sin (θ / 2) ^ 2 * hdot
  · linear_combination -v.y * Real.sin (θ / 2) ^ 2 * hdot
  · linear_combination -v.z * Real.sin (θ / 2) ^ 2 * hdot

end Quaternion

/-- **Turns keep scalar products.** -/
theorem dot_rotateAbout (u v a : Vec3 ℝ) (θ : ℝ) : (rotateAbout u a θ).dot (rotateAbout v a θ) = u.dot v :=
  Quaternion.dot_rotate (Quaternion.norm_ofRotationVector_scale a.norm_normalize θ) u v

/-- **Turning a vector keeps its length**, about every axis and by every angle. -/
theorem norm_rotateAbout (v axis : Vec3 ℝ) (angle : ℝ) : (rotateAbout v axis angle).norm = v.norm := by
  rw [Vec3.norm_eq, Vec3.norm_eq, dot_rotateAbout]

end TurtlePlant
