import TurtlePlant.Proofs.Painting
import TurtlePlant.Proofs.Upright

/-!
# Turns about an axis

Rotating by one quaternion and then by another is rotating by their product (`Quaternion.rotate_mul`), and quaternions of
turns about one unit axis multiply as their angles add up (`Quaternion.ofRotationVector_add`). So turns about an axis add up
(`rotateAbout_rotateAbout`). Every vector is an axis: what is too short to have a direction stands for `Vec3.up`.

What a turn does is told by its angle, and not by half of it: a vector goes round in the plane across the axis, by the
right-hand rule, and keeps what it has along the axis (`rotateAbout_eq`). So the axis itself stays (`rotateAbout_axis`), and
a turn of the turtle one way and then the other way, with the same number and about the same axis, gives its direction back
(`direction_of_turn_back`). All of this together is `turns_add_up`.
-/

namespace TurtlePlant

namespace Quaternion

/-! ## Products -/

/-- The product of two quaternions. -/
def mul {R : Type} [Arith R] (p q : Quaternion R) : Quaternion R where
  x := p.w * q.x + p.x * q.w + p.y * q.z - p.z * q.y
  y := p.w * q.y - p.x * q.z + p.y * q.w + p.z * q.x
  z := p.w * q.z + p.x * q.y - p.y * q.x + p.z * q.w
  w := p.w * q.w - p.x * q.x - p.y * q.y - p.z * q.z

/-- **Rotations follow each other as their quaternions multiply.** -/
theorem rotate_mul (p q : Quaternion ℝ) (v : Vec3 ℝ) : (p.mul q).rotate v = p.rotate (q.rotate v) := by
  simp only [mul, rotate, Exact.two_eq, Vec3.mk.injEq]
  refine ⟨?_, ?_, ?_⟩ <;> ring

/-- **Turns about a unit axis multiply as their angles add up.** -/
theorem ofRotationVector_add {a : Vec3 ℝ} (ha : a.norm = 1) (s t : ℝ) :
    ofRotationVector (a.scale (s + t)) = (ofRotationVector (a.scale t)).mul (ofRotationVector (a.scale s)) := by
  have hdot : a.x * a.x + a.y * a.y + a.z * a.z = 1 := (Vec3.norm_eq_one_iff a).mp ha
  rw [ofRotationVector_scale ha, ofRotationVector_scale ha, ofRotationVector_scale ha, add_div, Real.sin_add,
    Real.cos_add, mul, Quaternion.mk.injEq]
  -- the axis has no part across itself, and its length goes into the real part alone
  refine ⟨by ring, by ring, by ring, ?_⟩
  linear_combination Real.sin (s / 2) * Real.sin (t / 2) * hdot

end Quaternion

/-! ## Turns of vectors -/

/-- **A turn by its angle**, about any axis. -/
theorem rotateAbout_eq (v a : Vec3 ℝ) (θ : ℝ) : rotateAbout v a θ =
    v.scale (Real.cos θ) + (a.normalize.cross v).scale (Real.sin θ) +
      a.normalize.scale (a.normalize.dot v * (1 - Real.cos θ)) :=
  Quaternion.rotate_ofRotationVector a.norm_normalize θ v

/-- **Turns about an axis add up.** -/
theorem rotateAbout_rotateAbout (v a : Vec3 ℝ) (s t : ℝ) :
    rotateAbout (rotateAbout v a s) a t = rotateAbout v a (s + t) := by
  unfold rotateAbout
  rw [Quaternion.ofRotationVector_add a.norm_normalize, Quaternion.rotate_mul]

theorem rotateAbout_zero (v a : Vec3 ℝ) : rotateAbout v a 0 = v := by
  rw [rotateAbout_eq, Real.cos_zero, Real.sin_zero]
  simp [Vec3.add_eq, Vec3.scale, Vec3.map]

/-- **The axis stays**, and so does what is along it. -/
theorem rotateAbout_axis (a : Vec3 ℝ) (k θ : ℝ) : rotateAbout (a.normalize.scale k) a θ = a.normalize.scale k := by
  have hdot := (Vec3.norm_eq_one_iff _).mp a.norm_normalize
  rw [Vec3.dot_eq] at hdot
  rw [rotateAbout_eq]
  generalize a.normalize = e at hdot ⊢
  simp only [Vec3.add_eq, Vec3.scale, Vec3.map, Vec3.cross, Vec3.dot_eq, Vec3.mk.injEq]
  refine ⟨?_, ?_, ?_⟩
  · linear_combination e.x * k * (1 - Real.cos θ) * hdot
  · linear_combination e.y * k * (1 - Real.cos θ) * hdot
  · linear_combination e.z * k * (1 - Real.cos θ) * hdot

/-- What is too short to have a direction stands for `up`. -/
theorem rotateAbout_of_short {a : Vec3 ℝ} (ha : a.norm < leastLength) (v : Vec3 ℝ) (θ : ℝ) :
    rotateAbout v a θ = rotateAbout v .up θ := by
  have hshort : a.normalize = .up := if_pos ha
  unfold rotateAbout
  rw [hshort, Vec3.normalize_of_norm Vec3.norm_up]

/-! ## Turns of the turtle -/

namespace Turtle

section Scalar

variable {R G S : Type} [Scalar R] {t : Turtle R G S} {w w' : Walk R G S}

/-- The number that is drawn for a turn from here. -/
def turnDraw (t : Turtle R G S) (w : Walk R G S) : R := (t.source.next w.gen).1

/-- The axis about which a turn goes from here. -/
def turnAxis (t : Turtle R G S) (w : Walk R G S) : Vec3 R := (t.axes w.sampler (t.source.next w.gen).2).1

/-- A turn rotates the direction about its axis, and the angle is the same for the next turn. -/
theorem direction_of_turn {c : Char} (hc : c = '+' ∨ c = '-') {b : Option (Branch R)} (h : t.step w c = (w', .ok b)) :
    w'.pose.direction =
      rotateAbout w.pose.direction (t.turnAxis w) (turnSign c * turnAngle t.grammar w.pose (t.turnDraw w)) ∧
    w'.pose.angle = w.pose.angle := by
  obtain ⟨axis, sampler, gen, haxis, -, rfl⟩ := step_turn_ok hc h
  have hturn : t.turnAxis w = axis := congrArg Prod.fst haxis
  rw [hturn]
  exact ⟨rfl, rfl⟩

end Scalar

variable {G S : Type} {t : Turtle ℝ G S} {w w₁ w₂ : Walk ℝ G S}

/-- **A turn back gives the direction back**, with the same number and about the same axis. -/
theorem direction_of_turn_back {b₁ b₂ : Option (Branch ℝ)} (h₁ : t.step w '+' = (w₁, .ok b₁))
    (h₂ : t.step w₁ '-' = (w₂, .ok b₂)) (hdraw : t.turnDraw w₁ = t.turnDraw w) (haxis : t.turnAxis w₁ = t.turnAxis w) :
    w₂.pose.direction = w.pose.direction := by
  obtain ⟨hdir₁, hangle⟩ := direction_of_turn (Or.inl rfl) h₁
  obtain ⟨hdir₂, -⟩ := direction_of_turn (Or.inr rfl) h₂
  have hsame : turnAngle t.grammar w₁.pose (t.turnDraw w₁) = turnAngle t.grammar w.pose (t.turnDraw w) := by
    unfold turnAngle
    rw [hdraw, hangle]
  have hplus : (turnSign '+' : ℝ) = 1 := Exact.one_eq
  have hminus : (turnSign '-' : ℝ) = -1 := congrArg Neg.neg Exact.one_eq
  rw [hdir₂, hsame, haxis, hdir₁, rotateAbout_rotateAbout, hplus, hminus, ← add_mul, add_neg_cancel, zero_mul,
    rotateAbout_zero]

/-- **Turns about an axis add up**, whatever the vector and the axis. By its angle, a turn takes a vector round the axis,
where an axis too short to have a direction is `up`. Turns one after the other are one turn by the sum of the angles, a turn
by no angle moves nothing, scalar products are kept, and what is along the axis stays. So from every pose a turn of the turtle
and the turn back, with the same number drawn and about the same axis, give its direction back. -/
theorem turns_add_up :
    (∀ (v a : Vec3 ℝ) (θ : ℝ), rotateAbout v a θ =
      v.scale (Real.cos θ) + (a.normalize.cross v).scale (Real.sin θ) +
        a.normalize.scale (a.normalize.dot v * (1 - Real.cos θ))) ∧
    (∀ (v a : Vec3 ℝ) (θ : ℝ), a.norm < leastLength → rotateAbout v a θ = rotateAbout v .up θ) ∧
    (∀ (v a : Vec3 ℝ) (s t : ℝ), rotateAbout (rotateAbout v a s) a t = rotateAbout v a (s + t)) ∧
    (∀ v a : Vec3 ℝ, rotateAbout v a 0 = v) ∧
    (∀ (u v a : Vec3 ℝ) (θ : ℝ), (rotateAbout u a θ).dot (rotateAbout v a θ) = u.dot v) ∧
    (∀ (a : Vec3 ℝ) (k θ : ℝ), rotateAbout (a.normalize.scale k) a θ = a.normalize.scale k) ∧
    ∀ {G S : Type} (t : Turtle ℝ G S) (w : Walk ℝ G S), ∃ w₁ w₂, t.step w '+' = (w₁, .ok none) ∧
      t.step w₁ '-' = (w₂, .ok none) ∧ (t.turnDraw w₁ = t.turnDraw w → t.turnAxis w₁ = t.turnAxis w →
        w₂.pose.direction = w.pose.direction) := by
  refine ⟨rotateAbout_eq, fun v a θ ha => rotateAbout_of_short ha v θ, rotateAbout_rotateAbout, rotateAbout_zero,
    dot_rotateAbout, rotateAbout_axis, ?_⟩
  intro G S t w
  obtain ⟨w₁, b₁, h₁⟩ := step_ok t w '+'
  obtain ⟨w₂, b₂, h₂⟩ := step_ok t w₁ '-'
  obtain ⟨_, _, _, _, rfl, _⟩ := step_turn_ok (Or.inl rfl) h₁
  obtain ⟨_, _, _, _, rfl, _⟩ := step_turn_ok (Or.inr rfl) h₂
  exact ⟨w₁, w₂, h₁, h₂, direction_of_turn_back h₁ h₂⟩

/-- A turtle that turns about a level axis and heads upwards again when it turns back, and an axis of no length. -/
theorem turns_add_up_level :
    let t : Turtle ℝ Nat Unit :=
      { windyTurtle with source := ⟨fun n => (0.5, n + 1)⟩, axes := fun _ n => (.across, (), n) }
    let w := t.start 0 ()
    (Vec3.zero : Vec3 ℝ).norm < leastLength ∧ (∀ v θ, rotateAbout v (.zero : Vec3 ℝ) θ = rotateAbout v .up θ) ∧
      ∃ w₁ w₂, t.step w '+' = (w₁, .ok none) ∧ t.step w₁ '-' = (w₂, .ok none) ∧
        t.turnDraw w₁ = t.turnDraw w ∧ t.turnAxis w₁ = t.turnAxis w ∧
        0 < w₁.pose.direction.z ∧ w₂.pose.direction = .up := by
  intro t w
  have hshort : (Vec3.zero : Vec3 ℝ).norm < leastLength := by
    norm_num [Vec3.norm_eq, Vec3.dot_eq, Vec3.zero, leastLength]
  obtain ⟨-, hzero, -, -, -, -, hturtle⟩ := turns_add_up
  obtain ⟨w₁, w₂, h₁, h₂, hback⟩ := hturtle t w
  refine ⟨hshort, fun v θ => hzero v .zero θ hshort, w₁, w₂, h₁, h₂, rfl, rfl, ?_, hback rfl rfl⟩
  obtain ⟨hdir, -⟩ := direction_of_turn (Or.inl rfl) h₁
  have hangle : turnSign '+' * turnAngle t.grammar w.pose (t.turnDraw w) = 1 := by
    show (1.0 : ℝ) * (1.0 + (0.5 - 0.5) * 1.0) = 1
    norm_num
  have hup : rotateAbout (.up : Vec3 ℝ) .across 1 = ⟨-0.0 * Real.sin 1, Real.cos 1, 1.0 * Real.sin 1⟩ := by
    unfold rotateAbout
    rw [Vec3.normalize_of_norm Vec3.norm_across]
    exact Quaternion.ofRotationVector_rotate_up Vec3.norm_across Exact.zero_eq 1
  have hdirection : w₁.pose.direction = rotateAbout .up .across 1 := by
    rw [hdir, hangle]
    rfl
  rw [hdirection, hup, Exact.one_eq]
  exact mul_pos one_pos (Real.sin_pos_of_pos_of_lt_pi one_pos (by linarith [Real.two_le_pi]))

end Turtle

end TurtlePlant
