import TurtlePlant.Proofs.Upright
import TurtlePlant.View.Camera

/-!
# Where the camera goes

A position around a focal point is a distance, a polar angle (`Vec3.polar`) and a direction seen from above. On exact numbers
`clampPolar` leaves a position alone whose polar angle is between the bounds (`clampPolar_of_mem`) and puts any other one at
the bound it is beyond (`clampPolar_of_not_mem`): it goes to `Vec3.spherical`, of which distance and polar angle are known
(`norm_spherical`, `polar_spherical`). What that makes of a position is `Clamped`.

So the camera is `Camera.Confined` after every move, whatever the moves were (`settle_ok`, `orbit_ok`). All of this together
is `camera_confined`.
-/

namespace TurtlePlant

/-! ## Distances and angles -/

namespace Vec3

/-- The angle between the upward direction and a vector. -/
noncomputable def polar (v : Vec3 ℝ) : ℝ := Real.arccos (v.y / v.norm)

/-- The length of the horizontal part of a vector. -/
noncomputable def reach (v : Vec3 ℝ) : ℝ := √(v.x * v.x + v.z * v.z)

/-- The vector of a length and a polar angle, with its horizontal part in a direction. -/
noncomputable def spherical (distance θ : ℝ) (direction : ℝ × ℝ) : Vec3 ℝ :=
  scale ⟨Real.sin θ * direction.1, Real.cos θ, Real.sin θ * direction.2⟩ distance

theorem norm_nonneg (v : Vec3 ℝ) : 0 ≤ v.norm := Real.sqrt_nonneg _

theorem norm_sub_eq_zero_iff (v w : Vec3 ℝ) : (v - w).norm = 0 ↔ v = w := by
  constructor
  · intro h
    refine eq_of_dot_sub_le (le_of_eq ?_)
    rw [← norm_sq, h, zero_pow two_ne_zero]
  · rintro rfl
    exact norm_sub_self v

/-- The height of a vector is part of its length. -/
theorem y_div_norm_mem (v : Vec3 ℝ) : v.y / v.norm ∈ Set.Icc (-1 : ℝ) 1 := by
  have hy : |v.y| ≤ v.norm := by
    refine Real.abs_le_sqrt ?_
    rw [dot_eq]
    nlinarith [mul_self_nonneg v.x, mul_self_nonneg v.z]
  rw [Set.mem_Icc, ← abs_le, abs_div, abs_of_nonneg v.norm_nonneg]
  exact div_le_one_of_le₀ hy v.norm_nonneg

section Spherical

variable {distance θ : ℝ} {direction : ℝ × ℝ}

theorem norm_spherical (hd : 0 ≤ distance) (hdirection : direction.1 ^ 2 + direction.2 ^ 2 = 1) :
    (spherical distance θ direction).norm = distance := by
  have hunit : (⟨Real.sin θ * direction.1, Real.cos θ, Real.sin θ * direction.2⟩ : Vec3 ℝ).norm = 1 := by
    rw [norm_eq_one_iff, dot_eq]
    calc Real.sin θ * direction.1 * (Real.sin θ * direction.1) + Real.cos θ * Real.cos θ +
          Real.sin θ * direction.2 * (Real.sin θ * direction.2)
        = Real.sin θ ^ 2 * (direction.1 ^ 2 + direction.2 ^ 2) + Real.cos θ ^ 2 := by ring
      _ = 1 := by rw [hdirection, mul_one, Real.sin_sq_add_cos_sq]
  unfold spherical
  rw [norm_scale, hunit, one_mul, abs_of_nonneg hd]

theorem polar_spherical (hd : 0 < distance) (hdirection : direction.1 ^ 2 + direction.2 ^ 2 = 1)
    (hθ : θ ∈ Set.Icc 0 Real.pi) : (spherical distance θ direction).polar = θ := by
  unfold polar
  rw [norm_spherical hd.le hdirection]
  show Real.arccos (Real.cos θ * distance / distance) = θ
  rw [mul_div_cancel_right₀ _ hd.ne', Real.arccos_cos hθ.1 hθ.2]

end Spherical

end Vec3

/-! ## The direction seen from above -/

section Above

variable {v : Vec3 ℝ}

theorem leastHorizontal_pos : 0 < (leastHorizontal : ℝ) := by
  norm_num [leastHorizontal]

theorem horizontalDirection_of_long (h : leastHorizontal < v.reach) :
    horizontalDirection v = (v.x / v.reach, v.z / v.reach) := if_pos h

theorem horizontalDirection_of_short (h : v.reach ≤ leastHorizontal) : horizontalDirection v = (1, 0) := by
  rw [← Exact.one_eq, ← Exact.zero_eq]
  exact if_neg h.not_gt

theorem horizontalDirection_sq (v : Vec3 ℝ) :
    (horizontalDirection v).1 ^ 2 + (horizontalDirection v).2 ^ 2 = 1 := by
  rcases lt_or_ge leastHorizontal v.reach with h | h
  · have hpos : 0 < v.reach := leastHorizontal_pos.trans h
    have hsq : v.x ^ 2 + v.z ^ 2 = v.reach ^ 2 := by
      rw [pow_two v.x, pow_two v.z]
      exact (Real.sq_sqrt (add_nonneg (mul_self_nonneg v.x) (mul_self_nonneg v.z))).symm
    rw [horizontalDirection_of_long h, div_pow, div_pow, ← add_div, hsq]
    exact div_self (pow_pos hpos 2).ne'
  · rw [horizontalDirection_of_short h]
    norm_num

end Above

/-! ## One position -/

section Clamp

variable {position focalPoint : Vec3 ℝ} {least most : ℝ}

theorem polarAngle_norm (v : Vec3 ℝ) : polarAngle v v.norm = v.polar := by
  have hclip : clip (-1.0) 1.0 (v.y / v.norm) = v.y / v.norm := by
    rw [Exact.one_eq]
    exact Exact.clip_of_mem v.y_div_norm_mem
  unfold polarAngle
  rw [hclip]
  rfl

/-- **A position brought back**, with its three ways written out. -/
theorem clampPolar_eq (position focalPoint : Vec3 ℝ) (least most : ℝ) :
    clampPolar position focalPoint most least =
      .ok (if position = focalPoint then position
        else if min (max (position - focalPoint).polar least) most = (position - focalPoint).polar then position
        else focalPoint + Vec3.spherical (position - focalPoint).norm
          (min (max (position - focalPoint).polar least) most) (horizontalDirection (position - focalPoint))) := by
  have hsettled : ∀ v : Vec3 ℝ, v.settled? = .ok v := fun _ => rfl
  unfold clampPolar
  simp only [hsettled, Exact.ok_bind, polarAngle_norm, Exact.upper_eq, Exact.lower_eq, Exact.beq_iff, Exact.zero_eq,
    Vec3.norm_sub_eq_zero_iff, Exact.sine?_eq]
  split_ifs <;> rfl

@[simp] theorem clampPolar_focalPoint (focalPoint : Vec3 ℝ) (least most : ℝ) :
    clampPolar focalPoint focalPoint most least = .ok focalPoint := by
  rw [clampPolar_eq, if_pos rfl]

theorem clampPolar_of_mem (h : (position - focalPoint).polar ∈ Set.Icc least most) :
    clampPolar position focalPoint most least = .ok position := by
  rw [clampPolar_eq, max_eq_left h.1, min_eq_left h.2, if_pos rfl, ite_self]

theorem clampPolar_of_not_mem (hne : position ≠ focalPoint) (hle : least ≤ most)
    (h : (position - focalPoint).polar ∉ Set.Icc least most) :
    clampPolar position focalPoint most least = .ok (focalPoint + Vec3.spherical (position - focalPoint).norm
      (min (max (position - focalPoint).polar least) most) (horizontalDirection (position - focalPoint))) := by
  have hmoved : min (max (position - focalPoint).polar least) most ≠ (position - focalPoint).polar := by
    intro heq
    exact h (heq ▸ ⟨le_min (le_max_right _ _) hle, min_le_right _ _⟩)
  rw [clampPolar_eq, if_neg hne, if_neg hmoved]

/-- What becomes of a position away from the focal point. -/
structure Clamped (least most : ℝ) (position focalPoint result : Vec3 ℝ) : Prop where
  distance : (result - focalPoint).norm = (position - focalPoint).norm
  polar : (result - focalPoint).polar ∈ Set.Icc least most
  /-- What is between the bounds stays where it is. -/
  unmoved : (position - focalPoint).polar ∈ Set.Icc least most → result = position
  /-- An offset that has a direction seen from above keeps it. -/
  azimuth : leastHorizontal < (position - focalPoint).reach →
    ∃ k : ℝ, 0 < k ∧ (result - focalPoint).x = k * (position - focalPoint).x ∧
      (result - focalPoint).z = k * (position - focalPoint).z
  /-- One that has none is given the direction of `Vec3.across`. -/
  across : (position - focalPoint).reach ≤ leastHorizontal → (position - focalPoint).polar ∉ Set.Icc least most →
    0 < (result - focalPoint).x ∧ (result - focalPoint).z = 0
  again : clampPolar result focalPoint most least = .ok result

theorem Clamped.of_mem (h : (position - focalPoint).polar ∈ Set.Icc least most) :
    Clamped least most position focalPoint position where
  distance := rfl
  polar := h
  unmoved _ := rfl
  azimuth _ := ⟨1, one_pos, (one_mul _).symm, (one_mul _).symm⟩
  across _ hout := absurd h hout
  again := clampPolar_of_mem h

/-- A position is brought to the bound it is beyond. -/
theorem Clamped.of_not_mem (hne : position ≠ focalPoint) (hleast : 0 < least) (hle : least ≤ most)
    (hmost : most < Real.pi) (h : (position - focalPoint).polar ∉ Set.Icc least most) :
    Clamped least most position focalPoint (focalPoint + Vec3.spherical (position - focalPoint).norm
      (min (max (position - focalPoint).polar least) most) (horizontalDirection (position - focalPoint))) := by
  set offset := position - focalPoint with hoffset
  set θ := min (max offset.polar least) most with hθ
  have hdistance : 0 < offset.norm :=
    lt_of_le_of_ne offset.norm_nonneg fun heq => hne ((Vec3.norm_sub_eq_zero_iff _ _).mp heq.symm)
  have hmem : θ ∈ Set.Icc least most := ⟨le_min (le_max_right _ _) hle, min_le_right _ _⟩
  have hsine : 0 < Real.sin θ := Real.sin_pos_of_mem_Ioo ⟨hleast.trans_le hmem.1, hmem.2.trans_lt hmost⟩
  have hunit := horizontalDirection_sq offset
  have hresult := Vec3.add_sub_self focalPoint (Vec3.spherical offset.norm θ (horizontalDirection offset))
  have hpolar : (Vec3.spherical offset.norm θ (horizontalDirection offset)).polar = θ :=
    Vec3.polar_spherical hdistance hunit ⟨(hleast.trans_le hmem.1).le, (hmem.2.trans_lt hmost).le⟩
  refine ⟨?_, ?_, fun hin => absurd hin h, fun hlong => ?_, fun hshort _ => ?_, clampPolar_of_mem ?_⟩
  · rw [hresult, Vec3.norm_spherical hdistance.le hunit]
  · rw [hresult, hpolar]
    exact hmem
  · have hreach : 0 < offset.reach := leastHorizontal_pos.trans hlong
    refine ⟨Real.sin θ * offset.norm / offset.reach, by positivity, ?_, ?_⟩
    · rw [hresult, horizontalDirection_of_long hlong]
      show Real.sin θ * (offset.x / offset.reach) * offset.norm = _
      ring
    · rw [hresult, horizontalDirection_of_long hlong]
      show Real.sin θ * (offset.z / offset.reach) * offset.norm = _
      ring
  · rw [hresult, horizontalDirection_of_short hshort]
    show 0 < Real.sin θ * 1 * offset.norm ∧ Real.sin θ * 0 * offset.norm = 0
    rw [mul_one, mul_zero, zero_mul]
    exact ⟨mul_pos hsine hdistance, rfl⟩
  · rw [hresult, hpolar]
    exact hmem

/-- **A position away from the focal point is brought between the bounds.** -/
theorem clampPolar_clamped (hne : position ≠ focalPoint) (hleast : 0 < least) (hle : least ≤ most)
    (hmost : most < Real.pi) :
    ∃ result, clampPolar position focalPoint most least = .ok result ∧
      Clamped least most position focalPoint result := by
  by_cases h : (position - focalPoint).polar ∈ Set.Icc least most
  · exact ⟨position, clampPolar_of_mem h, .of_mem h⟩
  · exact ⟨_, clampPolar_of_not_mem hne hle h, .of_not_mem hne hleast hle hmost h⟩

end Clamp

/-! ## The camera after every move -/

namespace Camera

/-- Where a camera may be: at its focal point or between the bounds around it, with the upward direction up. -/
def Confined (config : ViewerConfig ℝ) (c : Camera ℝ) : Prop :=
  (c.position = c.focalPoint ∨ (c.position - c.focalPoint).polar ∈ Set.Icc minPolarAngle config.maxPolarAngle) ∧
    c.up = .up

/-- The cameras after moves of any kind, each of which is followed by `settle`. -/
def orbit {R : Type} [Scalar R] (config : ViewerConfig R) :
    Camera R → List (Camera R → Camera R) → Except NumericFault (List (Camera R))
  | _, [] => .ok []
  | c, move :: moves => do
    let c ← (move c).settle config
    return c :: (← orbit config c moves)

theorem minPolarAngle_pos : 0 < (minPolarAngle : ℝ) := by
  norm_num [minPolarAngle]

variable {config : ViewerConfig ℝ}

/-- A move is followed by a camera that is confined around what it was moved to look at. -/
theorem settle_ok (hle : minPolarAngle ≤ config.maxPolarAngle) (hmost : config.maxPolarAngle < Real.pi)
    (c : Camera ℝ) : ∃ c', c.settle config = .ok c' ∧ c'.focalPoint = c.focalPoint ∧ Confined config c' := by
  by_cases hne : c.position = c.focalPoint
  · have hstay : clampPolar c.position c.focalPoint config.maxPolarAngle minPolarAngle = .ok c.position := by
      rw [hne, clampPolar_focalPoint]
    refine ⟨{ c with up := .up }, ?_, rfl, .inl hne, rfl⟩
    unfold settle
    rw [hstay]
    rfl
  · obtain ⟨position, hposition, hclamped⟩ := clampPolar_clamped hne minPolarAngle_pos hle hmost
    refine ⟨{ c with position, up := .up }, ?_, rfl, .inr hclamped.polar, rfl⟩
    unfold settle
    rw [hposition]
    rfl

/-- **The camera is confined after every move**, whatever the moves were. -/
theorem orbit_ok (hle : minPolarAngle ≤ config.maxPolarAngle) (hmost : config.maxPolarAngle < Real.pi)
    (start : Camera ℝ) (moves : List (Camera ℝ → Camera ℝ)) :
    ∃ cs, orbit config start moves = .ok cs ∧ cs.length = moves.length ∧ ∀ c ∈ cs, Confined config c := by
  induction moves generalizing start with
  | nil => exact ⟨[], rfl, rfl, fun _ h => absurd h List.not_mem_nil⟩
  | cons move moves ih =>
    obtain ⟨c, hc, -, hconfined⟩ := settle_ok hle hmost (move start)
    obtain ⟨cs, hcs, hlength, hall⟩ := ih c
    refine ⟨c :: cs, ?_, congrArg (· + 1) hlength, List.forall_mem_cons.mpr ⟨hconfined, hall⟩⟩
    unfold orbit
    rw [hc, Exact.ok_bind, hcs, Exact.ok_bind]
    rfl

end Camera

/-- **The camera is brought between the bounds and otherwise left alone.** A position is brought between any bounds between
which a camera can be (`Clamped`), and stays at its focal point. So a camera is confined after every move, around what it was
moved to look at, and after every move of a sequence of moves. -/
theorem camera_confined :
    (∀ (position focalPoint : Vec3 ℝ) (least most : ℝ), 0 < least → least ≤ most → most < Real.pi →
      (position = focalPoint → clampPolar position focalPoint most least = .ok position) ∧
        (position ≠ focalPoint → ∃ result, clampPolar position focalPoint most least = .ok result ∧
          Clamped least most position focalPoint result)) ∧
    (∀ (config : ViewerConfig ℝ) (c : Camera ℝ), minPolarAngle ≤ config.maxPolarAngle → config.maxPolarAngle < Real.pi →
      ∃ c', c.settle config = .ok c' ∧ c'.focalPoint = c.focalPoint ∧ Camera.Confined config c') ∧
    ∀ (config : ViewerConfig ℝ) (start : Camera ℝ) (moves : List (Camera ℝ → Camera ℝ)),
      minPolarAngle ≤ config.maxPolarAngle → config.maxPolarAngle < Real.pi →
      ∃ cs, Camera.orbit config start moves = .ok cs ∧ cs.length = moves.length ∧
        ∀ c ∈ cs, Camera.Confined config c := by
  refine ⟨fun position focalPoint least most hleast hle hmost => ⟨?_, fun hne => ?_⟩,
    fun config c hle hmost => Camera.settle_ok hle hmost c,
    fun config start moves hle hmost => Camera.orbit_ok hle hmost start moves⟩
  · rintro rfl
    exact clampPolar_focalPoint position least most
  · exact clampPolar_clamped hne hleast hle hmost

/-- From straight below the focal point the camera comes up on the side of `Vec3.across`. -/
theorem camera_confined_below :
    (∃ result, clampPolar (⟨0, -2, 0⟩ : Vec3 ℝ) .zero (Real.pi / 2) 1e-3 = .ok result ∧
        (result - .zero).norm = 2 ∧ 0 < (result - .zero).x ∧ (result - .zero).z = 0) ∧
      ∃ c, Camera.orbit ({} : ViewerConfig ℝ) (.start {}) [fun c => { c with position := ⟨0, -2, 0⟩ }] = .ok [c] ∧
        Camera.Confined {} c := by
  have hpi : Real.pi / 2 < Real.pi := half_lt_self Real.pi_pos
  have hmost : (({} : ViewerConfig ℝ).maxPolarAngle) = Real.pi / 2 := congrArg (Real.pi / ·) Exact.two_eq
  have hleast : (1e-3 : ℝ) ≤ Real.pi / 2 := by
    have hsmall : (1e-3 : ℝ) ≤ 1 := by norm_num
    linarith [Real.two_le_pi]
  have hoffset : (⟨0, -2, 0⟩ - .zero : Vec3 ℝ) = ⟨0, -2, 0⟩ := by
    show Vec3.mk (0 - 0.0) (-2 - 0.0) (0 - 0.0) = _
    norm_num
  have hne : (⟨0, -2, 0⟩ : Vec3 ℝ) ≠ .zero := by
    norm_num [Vec3.zero]
  have hnorm : (⟨0, -2, 0⟩ : Vec3 ℝ).norm = 2 := by
    have hsquare : (0 : ℝ) * 0 + -2 * -2 + 0 * 0 = 2 ^ 2 := by norm_num
    rw [Vec3.norm_eq, Vec3.dot_eq, hsquare, Real.sqrt_sq two_pos.le]
  have hpolar : (⟨0, -2, 0⟩ : Vec3 ℝ).polar = Real.pi := by
    unfold Vec3.polar
    rw [hnorm, neg_div, div_self two_ne_zero, Real.arccos_neg_one]
  have hshort : (⟨0, -2, 0⟩ : Vec3 ℝ).reach ≤ leastHorizontal := by
    unfold Vec3.reach
    norm_num [leastHorizontal]
  obtain ⟨hclamp, -, horbit⟩ := camera_confined
  constructor
  · obtain ⟨-, haway⟩ := hclamp ⟨0, -2, 0⟩ .zero 1e-3 (Real.pi / 2) (by norm_num) hleast hpi
    obtain ⟨result, hresult, hclamped⟩ := haway hne
    have hdistance := hclamped.distance
    have hacross := hclamped.across
    rw [hoffset] at hdistance hacross
    exact ⟨result, hresult, hdistance.trans hnorm, hacross hshort fun hin => hpi.not_ge (hpolar ▸ hin.2)⟩
  · obtain ⟨cs, hcs, hlength, hall⟩ := horbit {} (.start {}) [fun c => { c with position := ⟨0, -2, 0⟩ }]
      (hmost ▸ hleast) (hmost ▸ hpi)
    obtain ⟨c, rfl⟩ := List.length_eq_one_iff.mp hlength
    exact ⟨c, hcs, hall c (List.mem_singleton_self c)⟩

end TurtlePlant
