import TurtlePlant.Proofs.Rotations

/-!
# The rotation of a segment

`rotationFromUp` turns `Vec3.up` about the axis across it and a direction, by the angle between them. On exact numbers it is
a turn about a unit axis across `up`, by at most half a turn (`exists_turn`). Where the axis is long enough to have a
direction, `up` is taken onto the direction exactly (`rotate_up_of_across`). Where it is not, the direction is next to `up` or
to its opposite, one of which stands for it, and what is missed is no longer than `√2` times the axis
(`dot_rotate_up_sub_le`). So `up` comes close to the direction in every case (`norm_rotate_up_sub_le`). All of this together
is `up_taken_without_twist`.
-/

namespace TurtlePlant

namespace Vec3

theorem up_dot (v : Vec3 ℝ) : up.dot v = v.y := by
  show 0.0 * v.x + 1.0 * v.y + 0.0 * v.z = v.y
  norm_num

theorem up_cross (v : Vec3 ℝ) : up.cross v = ⟨v.z, 0, -v.x⟩ := by
  show Vec3.mk (1.0 * v.z - 0.0 * v.y) (0.0 * v.x - 0.0 * v.z) (0.0 * v.y - 1.0 * v.x) = _
  norm_num

theorem norm_across : (across : Vec3 ℝ).norm = 1 := by
  rw [norm_eq_one_iff, dot_eq]
  norm_num [across]

theorem norm_sq (v : Vec3 ℝ) : v.norm ^ 2 = v.dot v := Real.sq_sqrt v.dot_self_nonneg

theorem norm_sub_self (v : Vec3 ℝ) : (v - v).norm = 0 := by
  have h : v - v = ⟨0, 0, 0⟩ := by
    show Vec3.mk (v.x - v.x) (v.y - v.y) (v.z - v.z) = _
    simp
  rw [h, norm_eq, dot_eq]
  simp

theorem scale_one (v : Vec3 ℝ) : v.scale 1 = v := by
  show Vec3.mk (v.x * 1) (v.y * 1) (v.z * 1) = v
  simp

theorem eq_of_dot_sub_le {v w : Vec3 ℝ} (h : (v - w).dot (v - w) ≤ 0) : v = w := by
  have hsum : (v.x - w.x) * (v.x - w.x) + (v.y - w.y) * (v.y - w.y) + (v.z - w.z) * (v.z - w.z) ≤ 0 := h
  have hx : v.x - w.x = 0 := mul_self_eq_zero.mp (by nlinarith [mul_self_nonneg (v.x - w.x)])
  have hy : v.y - w.y = 0 := mul_self_eq_zero.mp (by nlinarith [mul_self_nonneg (v.y - w.y)])
  have hz : v.z - w.z = 0 := mul_self_eq_zero.mp (by nlinarith [mul_self_nonneg (v.z - w.z)])
  obtain ⟨x, y, z⟩ := v
  rw [mk.injEq]
  exact ⟨sub_eq_zero.mp hx, sub_eq_zero.mp hy, sub_eq_zero.mp hz⟩

/-- A multiple of a unit vector is brought back to it, or to its opposite. -/
theorem normalize_scale {v : Vec3 ℝ} (hv : v.norm = 1) {k : ℝ} (hk : leastLength ≤ |k|) :
    (v.scale k).normalize = v.scale (k / |k|) := by
  have hnorm : (v.scale k).norm = |k| := by rw [norm_scale, hv, one_mul]
  unfold normalize normalizeOr
  rw [hnorm, if_neg hk.not_gt]
  show Vec3.mk (v.x * k / |k|) (v.y * k / |k|) (v.z * k / |k|) = Vec3.mk (v.x * (k / |k|)) _ _
  simp only [mul_div_assoc]

theorem normalize_of_norm {v : Vec3 ℝ} (hv : v.norm = 1) : v.normalize = v := by
  have hone : leastLength ≤ |(1 : ℝ)| := by norm_num [leastLength]
  have h := normalize_scale hv hone
  rwa [abs_one, div_one, scale_one] at h

/-- The vector across `up` and a unit vector has the sine of the angle between them as its length. -/
theorem dot_up_cross {v : Vec3 ℝ} (hv : v.norm = 1) : (up.cross v).dot (up.cross v) = 1 - v.y ^ 2 := by
  have hdot : v.x * v.x + v.y * v.y + v.z * v.z = 1 := (norm_eq_one_iff v).mp hv
  rw [up_cross, dot_eq]
  linarith

theorem y_mem {v : Vec3 ℝ} (hv : v.norm = 1) : v.y ∈ Set.Icc (-1) 1 := by
  have h : 0 ≤ 1 - v.y ^ 2 := dot_up_cross hv ▸ dot_self_nonneg _
  exact abs_le.mp (abs_le_one_iff_mul_self_le_one.mpr (by linarith))

end Vec3

namespace Quaternion

/-- A turn of `up` about a unit axis across it. -/
theorem ofRotationVector_rotate_up {a : Vec3 ℝ} (ha : a.norm = 1) (hy : a.y = 0) (θ : ℝ) :
    (ofRotationVector (a.scale θ)).rotate .up = ⟨-a.z * Real.sin θ, Real.cos θ, a.x * Real.sin θ⟩ := by
  have hdot : a.dot .up = 0 := by
    rw [Vec3.dot_eq, hy]
    norm_num [Vec3.up]
  rw [rotate_ofRotationVector ha, hdot]
  simp [Vec3.add_eq, Vec3.scale, Vec3.map, Vec3.cross, Vec3.up, Exact.zero_eq, Exact.one_eq]

end Quaternion

/-! ## The two cases -/

variable {d : Vec3 ℝ}

theorem clip_up_dot (d : Vec3 ℝ) : clip (-1.0) 1.0 (Vec3.up.dot d.normalize) = d.normalize.y := by
  have hmem := Vec3.y_mem d.norm_normalize
  rw [Vec3.up_dot, Exact.one_eq]
  exact Exact.clip_of_mem hmem

/-- **The rotation is a turn without twist**: about a unit axis across `up`, by at most half a turn. -/
theorem exists_turn (d : Vec3 ℝ) :
    ∃ (a : Vec3 ℝ) (θ : ℝ), a.norm = 1 ∧ a.y = 0 ∧ θ ∈ Set.Icc 0 Real.pi ∧
      rotationFromUp d = .ofRotationVector (a.scale θ) := by
  have hacross : (Vec3.across : Vec3 ℝ).y = 0 := Exact.zero_eq
  have hpi : (0 : ℝ) ≤ Real.pi := Real.pi_pos.le
  unfold rotationFromUp
  dsimp only
  split_ifs with haxis hcosine
  · refine ⟨.across, 0, Vec3.norm_across, hacross, ⟨le_rfl, hpi⟩, ?_⟩
    rw [Quaternion.ofRotationVector_scale Vec3.norm_across]
    norm_num [Quaternion.identity]
  · exact ⟨.across, Real.pi, Vec3.norm_across, hacross, ⟨hpi, le_rfl⟩, rfl⟩
  · have hpos := Vec3.leastLength_pos.trans_le (not_lt.mp haxis)
    refine ⟨_, _, Vec3.norm_divide_norm hpos, ?_, ⟨Real.arccos_nonneg _, Real.arccos_le_pi _⟩, rfl⟩
    rw [Vec3.up_cross]
    exact zero_div _

theorem norm_rotationFromUp (d : Vec3 ℝ) : (rotationFromUp d).norm = 1 := by
  obtain ⟨a, θ, ha, -, -, hturn⟩ := exists_turn d
  rw [hturn]
  exact Quaternion.norm_ofRotationVector_scale ha θ

/-- There is nothing of `up` in the axis. -/
theorem y_rotationFromUp (d : Vec3 ℝ) : (rotationFromUp d).y = 0 := by
  obtain ⟨a, θ, ha, hy, -, hturn⟩ := exists_turn d
  rw [hturn, Quaternion.ofRotationVector_scale ha, hy, zero_mul]

/-- Half the angle is no more than a right angle. -/
theorem w_rotationFromUp_nonneg (d : Vec3 ℝ) : 0 ≤ (rotationFromUp d).w := by
  obtain ⟨a, θ, ha, -, ⟨hlow, hhigh⟩, hturn⟩ := exists_turn d
  have hneg : -(Real.pi / 2) ≤ θ / 2 := by linarith [Real.pi_pos]
  rw [hturn, Quaternion.ofRotationVector_scale ha]
  exact Real.cos_nonneg_of_neg_pi_div_two_le_of_le hneg (by linarith)

/-- **Where there is an axis, `up` is taken onto the direction.** -/
theorem rotate_up_of_across (h : leastLength ≤ (Vec3.up.cross d.normalize).norm) :
    (rotationFromUp d).rotate .up = d.normalize := by
  have hunit := d.norm_normalize
  set n := d.normalize with hn
  set s := (Vec3.up.cross n).norm with hs
  have hpos : 0 < s := Vec3.leastLength_pos.trans_le h
  have haxis : ((Vec3.up.cross n).divide s).norm = 1 := Vec3.norm_divide_norm hpos
  have hsine : Real.sin (Real.arccos n.y) = s := by
    rw [Real.sin_arccos, ← Vec3.dot_up_cross hunit]; rfl
  have hcosine : Real.cos (Real.arccos n.y) = n.y := Real.cos_arccos (Vec3.y_mem hunit).1 (Vec3.y_mem hunit).2
  have hrotation : rotationFromUp d =
      .ofRotationVector (((Vec3.up.cross n).divide s).scale (Real.arccos n.y)) := by
    unfold rotationFromUp
    dsimp only
    rw [clip_up_dot, ← hn, ← hs, if_neg h.not_gt]; rfl
  have hx : -(-n.x / s) * s = n.x := by rw [neg_div, neg_neg, div_mul_cancel₀ _ hpos.ne']
  have hz : n.z / s * s = n.z := div_mul_cancel₀ _ hpos.ne'
  rw [hrotation, Quaternion.ofRotationVector_rotate_up haxis ?_, hsine, hcosine, Vec3.up_cross]
  · show Vec3.mk (-(-n.x / s) * s) n.y (n.z / s * s) = n
    rw [hx, hz]
  · rw [Vec3.up_cross]
    exact zero_div s

/-- **Where there is none, `up` or its opposite is next to the direction.** -/
theorem dot_rotate_up_sub_le (h : (Vec3.up.cross d.normalize).norm < leastLength) :
    ((rotationFromUp d).rotate .up - d.normalize).dot ((rotationFromUp d).rotate .up - d.normalize) ≤
      2 * (Vec3.up.cross d.normalize).dot (Vec3.up.cross d.normalize) := by
  have hunit := d.norm_normalize
  set n := d.normalize with hn
  obtain ⟨hlow, hhigh⟩ := Vec3.y_mem hunit
  have hdot : n.x * n.x + n.y * n.y + n.z * n.z = 1 := (Vec3.norm_eq_one_iff n).mp hunit
  rw [Vec3.dot_up_cross hunit]
  by_cases hy : 0 < n.y
  · have hrotation : rotationFromUp d = .identity := by
      unfold rotationFromUp
      dsimp only
      rw [clip_up_dot, ← hn, if_pos h, Exact.zero_eq, if_pos hy]
    have hup : (Quaternion.identity : Quaternion ℝ).rotate .up = ⟨0, 1, 0⟩ := by
      norm_num [Quaternion.rotate, Quaternion.identity, Vec3.up]
    rw [hrotation, hup]
    show (0 - n.x) * (0 - n.x) + (1 - n.y) * (1 - n.y) + (0 - n.z) * (0 - n.z) ≤ 2 * (1 - n.y ^ 2)
    nlinarith
  · have hrotation : rotationFromUp d = .ofRotationVector (Vec3.across.scale Real.pi) := by
      unfold rotationFromUp
      dsimp only
      rw [clip_up_dot, ← hn, if_pos h, Exact.zero_eq, if_neg hy]; rfl
    have hup : (Quaternion.ofRotationVector (Vec3.across.scale Real.pi)).rotate .up = ⟨0, -1, 0⟩ := by
      rw [Quaternion.ofRotationVector_rotate_up Vec3.norm_across Exact.zero_eq]
      simp
    rw [hrotation, hup]
    show (0 - n.x) * (0 - n.x) + (-1 - n.y) * (-1 - n.y) + (0 - n.z) * (0 - n.z) ≤ 2 * (1 - n.y ^ 2)
    nlinarith

/-- Where the direction is that of `up` or its opposite, nothing is missed. -/
theorem rotate_up_of_along (h : (Vec3.up.cross d.normalize).norm = 0) : (rotationFromUp d).rotate .up = d.normalize := by
  have hle := dot_rotate_up_sub_le (h.trans_lt Vec3.leastLength_pos)
  rw [← Vec3.norm_sq (Vec3.up.cross d.normalize), h] at hle
  exact Vec3.eq_of_dot_sub_le (hle.trans_eq (by norm_num))

theorem rotate_up_of_up : (rotationFromUp .up).rotate .up = (.up : Vec3 ℝ) := by
  have hunit : (Vec3.up : Vec3 ℝ).normalize = .up := Vec3.normalize_of_norm Vec3.norm_up
  have hcross : (Vec3.up.cross (Vec3.up : Vec3 ℝ).normalize).norm = 0 := by
    rw [hunit, Vec3.up_cross]
    norm_num [Vec3.norm_eq, Vec3.dot_eq, Vec3.up]
  exact (rotate_up_of_along hcross).trans hunit

/-- **The rotation takes `up` next to the direction**, and exactly there unless the direction is all but that of `up` or its
opposite. -/
theorem norm_rotate_up_sub_le (d : Vec3 ℝ) :
    ((rotationFromUp d).rotate .up - d.normalize).norm ≤ 2 * leastLength := by
  have hleast := Vec3.leastLength_pos
  rcases lt_or_ge (Vec3.up.cross d.normalize).norm leastLength with h | h
  · have hle := dot_rotate_up_sub_le h
    rw [← Vec3.norm_sq, ← Vec3.norm_sq] at hle
    have haxis : (Vec3.up.cross d.normalize).norm ^ 2 ≤ leastLength ^ 2 := pow_le_pow_left₀ (Real.sqrt_nonneg _) h.le 2
    have hsq : ((rotationFromUp d).rotate .up - d.normalize).norm ^ 2 ≤ (2 * leastLength) ^ 2 := by
      linarith [sq_nonneg (leastLength : ℝ)]
    exact (abs_le_of_sq_le_sq' hsq (by linarith)).2
  · rw [rotate_up_of_across h, Vec3.norm_sub_self]
    linarith

/-- **`up` is taken onto the direction without twist**, whatever the direction: exactly where the axis is long enough or has
no length at all, and otherwise within twice the least length of an axis. -/
theorem up_taken_without_twist (d : Vec3 ℝ) :
    (rotationFromUp d).norm = 1 ∧ (rotationFromUp d).y = 0 ∧ 0 ≤ (rotationFromUp d).w ∧
      ((rotationFromUp d).rotate .up - d.normalize).norm ≤ 2 * leastLength ∧
      (leastLength ≤ (Vec3.up.cross d.normalize).norm ∨ (Vec3.up.cross d.normalize).norm = 0 →
        (rotationFromUp d).rotate .up = d.normalize) := by
  refine ⟨norm_rotationFromUp d, y_rotationFromUp d, w_rotationFromUp_nonneg d, norm_rotate_up_sub_le d, ?_⟩
  rintro (hacross | halong)
  · exact rotate_up_of_across hacross
  · exact rotate_up_of_along halong

/-- The direction `(3, 4, 0)` has an axis across it and `up`, and `up` is taken onto `(3/5, 4/5, 0)`. -/
theorem up_taken_without_twist_slanted :
    leastLength ≤ (Vec3.up.cross (⟨3, 4, 0⟩ : Vec3 ℝ).normalize).norm ∧
      (rotationFromUp (⟨3, 4, 0⟩ : Vec3 ℝ)).rotate .up = ⟨3 / 5, 4 / 5, 0⟩ := by
  have hunit : (⟨3 / 5, 4 / 5, 0⟩ : Vec3 ℝ).norm = 1 := by
    rw [Vec3.norm_eq_one_iff, Vec3.dot_eq]
    norm_num
  have hscale : (⟨3, 4, 0⟩ : Vec3 ℝ) = (⟨3 / 5, 4 / 5, 0⟩ : Vec3 ℝ).scale 5 := by
    norm_num [Vec3.scale, Vec3.map]
  have hnormalize : (⟨3, 4, 0⟩ : Vec3 ℝ).normalize = ⟨3 / 5, 4 / 5, 0⟩ := by
    have hlong : (leastLength : ℝ) ≤ |5| := by norm_num [leastLength]
    rw [hscale, Vec3.normalize_scale hunit hlong, abs_of_pos (by norm_num), div_self (by norm_num), Vec3.scale_one]
  have hcross : leastLength ≤ (Vec3.up.cross (⟨3, 4, 0⟩ : Vec3 ℝ).normalize).norm := by
    rw [hnormalize, Vec3.up_cross, Vec3.norm_eq, Vec3.dot_eq]
    exact Real.le_sqrt_of_sq_le (by norm_num [leastLength])
  obtain ⟨-, -, -, -, hexact⟩ := up_taken_without_twist (⟨3, 4, 0⟩ : Vec3 ℝ)
  exact ⟨hcross, (hexact (.inl hcross)).trans hnormalize⟩

end TurtlePlant
