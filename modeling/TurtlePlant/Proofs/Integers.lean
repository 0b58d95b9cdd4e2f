import TurtlePlant.Proofs.Branching
import TurtlePlant.Scalar.Quantity

/-!
# Where integers are held

A quantity that is an integer changes when it is stored, and no other does (`Quantity.settle_of_not_integer`). An integer
comes of integers only, and of no quotient (`isInteger_add`, `isInteger_div`), so that sizes given as integers do not get
far. A colour is made of machine numbers (`ofMachine_of_barkColour`), and each coordinate, length and depth of a branch has
come of a machine number somewhere (`reads_plain`, `plain_of_interpret`). What may be integers are its radii, and those only
if the radius of the plant is one. So nothing else changes when a branch is stored (`Branch.eq_of_settled?`).
-/

namespace TurtlePlant

/-! ## Quantities -/

namespace Quantity

/-- Whether a quantity is an integer. -/
def isInteger : Quantity → Bool
  | integer _ => true
  | _ => false

/-- A quantity that is no integer is in its stored form. -/
theorem settle_of_not_integer {q : Quantity} (h : q.isInteger = false) : q.settle = q := by
  cases q with
  | integer n => cases h
  | machine x => rfl
  | lost => rfl

theorem isInteger_ofOption (x : Option Float) : (ofOption x).isInteger = false := by cases x <;> rfl

theorem isInteger_onMachine (f : Float → Float) (q : Quantity) : (onMachine f q).isInteger = false := by
  cases q with
  | integer n => exact isInteger_ofOption _
  | machine x => rfl
  | lost => rfl

/-- What an operation gives beside a machine number is no integer. -/
theorem isInteger_combine (onInts : Int → Int → Quantity) (f : Float → Float → Float) {k : Bool}
    (h : ∀ m n, (onInts m n).isInteger = k) (a b : Quantity) :
    (combine onInts f a b).isInteger = (a.isInteger && b.isInteger && k) := by
  cases a with
  | integer m =>
    cases b with
    | integer n => exact h m n
    | machine y => exact isInteger_ofOption _
    | lost => rfl
  | machine x =>
    cases b with
    | integer n => exact isInteger_ofOption _
    | machine y => rfl
    | lost => rfl
  | lost => cases b <;> rfl

theorem isInteger_quotient (m n : Int) : (quotient m n).isInteger = false := by
  unfold quotient
  split
  · rfl
  · split
    · rfl
    · dsimp only
      split <;> rfl

@[simp] theorem isInteger_add (a b : Quantity) : (a + b).isInteger = (a.isInteger && b.isInteger) :=
  (isInteger_combine (fun m n => integer (m + n)) (· + ·) (fun _ _ => rfl) a b).trans (Bool.and_true _)

@[simp] theorem isInteger_sub (a b : Quantity) : (a - b).isInteger = (a.isInteger && b.isInteger) :=
  (isInteger_combine (fun m n => integer (m - n)) (· - ·) (fun _ _ => rfl) a b).trans (Bool.and_true _)

@[simp] theorem isInteger_mul (a b : Quantity) : (a * b).isInteger = (a.isInteger && b.isInteger) :=
  (isInteger_combine (fun m n => integer (m * n)) (· * ·) (fun _ _ => rfl) a b).trans (Bool.and_true _)

@[simp] theorem isInteger_div (a b : Quantity) : (a / b).isInteger = false :=
  (isInteger_combine quotient (· / ·) isInteger_quotient a b).trans (Bool.and_false _)

@[simp] theorem isInteger_neg (a : Quantity) : (-a).isInteger = a.isInteger := by cases a <;> rfl

@[simp] theorem isInteger_ofScientific (m : Nat) (s : Bool) (e : Nat) :
    (OfScientific.ofScientific m s e : Quantity).isInteger = false := rfl

@[simp] theorem isInteger_cos (a : Quantity) : (Scalar.cos a).isInteger = false := isInteger_onMachine _ a

@[simp] theorem isInteger_ite (c : Prop) [Decidable c] (a b : Quantity) :
    (if c then a else b).isInteger = if c then a.isInteger else b.isInteger := apply_ite isInteger c a b

/-- Whether a quantity is a machine number. -/
def isMachine : Quantity → Bool
  | machine _ => true
  | _ => false

theorem isInteger_of_isMachine {q : Quantity} (h : q.isMachine = true) : q.isInteger = false := by
  cases q with
  | integer n => cases h
  | machine x => rfl
  | lost => cases h

/-- What is kept and no integer is a machine number. -/
theorem isMachine_of_kept? {x y : Quantity} (hx : x.isInteger = false) (h : kept? x = .ok y) : y.isMachine = true := by
  cases x with
  | integer n => cases hx
  | machine z => cases h; rfl
  | lost => cases h

/-- An operation on machine numbers gives one. -/
theorem isMachine_combine (onInts : Int → Int → Quantity) (f : Float → Float → Float) {a b : Quantity}
    (ha : a.isMachine = true) (hb : b.isMachine = true) : (combine onInts f a b).isMachine = true := by
  cases a with
  | integer m => cases ha
  | lost => cases ha
  | machine x =>
    cases b with
    | integer n => cases hb
    | lost => cases hb
    | machine y => rfl

theorem isMachine_add {a b : Quantity} (ha : a.isMachine = true) (hb : b.isMachine = true) :
    (a + b).isMachine = true := isMachine_combine _ _ ha hb

theorem isMachine_sub {a b : Quantity} (ha : a.isMachine = true) (hb : b.isMachine = true) :
    (a - b).isMachine = true := isMachine_combine _ _ ha hb

theorem isMachine_mul {a b : Quantity} (ha : a.isMachine = true) (hb : b.isMachine = true) :
    (a * b).isMachine = true := isMachine_combine _ _ ha hb

theorem isMachine_div {a b : Quantity} (ha : a.isMachine = true) (hb : b.isMachine = true) :
    (a / b).isMachine = true := isMachine_combine _ _ ha hb

theorem isMachine_fract {a : Quantity} (ha : a.isMachine = true) : (Arith.fract a).isMachine = true := by
  cases a with
  | integer n => rfl
  | machine x => rfl
  | lost => cases ha

theorem isMachine_ite (c : Prop) [Decidable c] {a b : Quantity} (ha : a.isMachine = true) (hb : b.isMachine = true) :
    (if c then a else b).isMachine = true := by
  split
  · exact ha
  · exact hb

end Quantity

/-! ## Vectors, rotations and colours -/

/-- A vector without integers. -/
structure Vec3.Plain (v : Vec3 Quantity) : Prop where
  x : v.x.isInteger = false
  y : v.y.isInteger = false
  z : v.z.isInteger = false

/-- A quaternion without integers. -/
structure Quaternion.Plain (q : Quaternion Quantity) : Prop where
  x : q.x.isInteger = false
  y : q.y.isInteger = false
  z : q.z.isInteger = false
  w : q.w.isInteger = false

/-- A colour of machine numbers. -/
structure Rgb.OfMachine (c : Rgb Quantity) : Prop where
  red : c.red.isMachine = true
  green : c.green.isMachine = true
  blue : c.blue.isMachine = true

/-- A hue, a lightness and a saturation that are machine numbers. -/
structure Hls.OfMachine (c : Hls Quantity) : Prop where
  hue : c.hue.isMachine = true
  lightness : c.lightness.isMachine = true
  saturation : c.saturation.isMachine = true

theorem Vec3.plain_add {v : Vec3 Quantity} (h : v.Plain) (w : Vec3 Quantity) : (v + w).Plain := by
  show (Vec3.mk (v.x + w.x) (v.y + w.y) (v.z + w.z)).Plain
  exact ⟨by simp [h.x], by simp [h.y], by simp [h.z]⟩

theorem Vec3.plain_normalizeOr (v : Vec3 Quantity) {w : Vec3 Quantity} (h : w.Plain) : (v.normalizeOr w).Plain := by
  unfold normalizeOr
  split
  · exact h
  · exact ⟨by simp [divide, map], by simp [divide, map], by simp [divide, map]⟩

/-- A rotation turns every vector into one without integers. -/
theorem Quaternion.plain_rotate {q : Quaternion Quantity} (h : q.Plain) (v : Vec3 Quantity) : (q.rotate v).Plain := by
  constructor <;> simp [rotate, h.x, h.y, h.z, h.w]

theorem Quaternion.plain_ofRotationVector (v : Vec3 Quantity) : (ofRotationVector v).Plain := by
  constructor <;> simp [ofRotationVector]

theorem plain_rotateAbout (v axis : Vec3 Quantity) (angle : Quantity) : (rotateAbout v axis angle).Plain :=
  Quaternion.plain_rotate (Quaternion.plain_ofRotationVector _) v

theorem plain_rotationFromUp (direction : Vec3 Quantity) : (rotationFromUp direction).Plain := by
  unfold rotationFromUp
  dsimp only
  split
  · split
    · exact ⟨rfl, rfl, rfl, rfl⟩
    · exact Quaternion.plain_ofRotationVector _
  · exact Quaternion.plain_ofRotationVector _

open Quantity in
theorem Hls.isMachine_channel {low high hue : Quantity} (hl : low.isMachine = true) (hh : high.isMachine = true)
    (hhue : hue.isMachine = true) : (channel low high hue).isMachine = true := by
  have hspread : (high - low).isMachine = true := isMachine_sub hh hl
  have hfract : (Arith.fract hue).isMachine = true := isMachine_fract hhue
  refine isMachine_ite _ ?_ (isMachine_ite _ hh (isMachine_ite _ ?_ hl))
  · exact isMachine_add hl (isMachine_mul (isMachine_mul hspread hfract) rfl)
  · exact isMachine_add hl (isMachine_mul (isMachine_mul hspread (isMachine_sub rfl hfract)) rfl)

open Quantity in
theorem Hls.ofMachine_toRgb {c : Hls Quantity} (h : c.OfMachine) : c.toRgb.OfMachine := by
  have hhigh : c.high.isMachine = true := by
    refine isMachine_ite _ ?_ ?_
    · exact isMachine_mul h.lightness (isMachine_add rfl h.saturation)
    · exact isMachine_sub (isMachine_add h.lightness h.saturation) (isMachine_mul h.lightness h.saturation)
  have hlow : (2.0 * c.lightness - c.high).isMachine = true := isMachine_sub (isMachine_mul rfl h.lightness) hhigh
  unfold toRgb
  split
  · exact ⟨h.lightness, h.lightness, h.lightness⟩
  · exact ⟨isMachine_channel hlow hhigh (isMachine_add h.hue rfl), isMachine_channel hlow hhigh h.hue,
      isMachine_channel hlow hhigh (isMachine_sub h.hue rfl)⟩

/-- A quotient that is not refused is kept. -/
theorem kept?_of_divide? {R : Type} [Arith R] {a b q : R} (h : divide? a b = .ok q) : kept? (a / b) = .ok q := by
  unfold divide? at h
  dsimp only at h
  split at h
  · -- a zero divisor is refused, whether the dividend has a stored form or not
    split at h
    · obtain ⟨_, _, h⟩ := Turtle.bind_ok h
      cases h
    · cases h
  · exact h

theorem isMachine_of_divide? {a b q : Quantity} (h : divide? a b = .ok q) : q.isMachine = true :=
  Quantity.isMachine_of_kept? (Quantity.isInteger_div a b) (kept?_of_divide? h)

theorem isMachine_of_saturation {c : Rgb Quantity} {q : Quantity} (h : c.saturation = .ok q) : q.isMachine = true := by
  unfold Rgb.saturation at h
  dsimp only at h
  split at h
  · exact isMachine_of_divide? h
  · exact isMachine_of_divide? h

open Quantity in
theorem isMachine_of_hue {c : Rgb Quantity} {q : Quantity} (h : c.hue = .ok q) : q.isMachine = true := by
  obtain ⟨r, hr, h⟩ := Turtle.bind_ok h
  obtain ⟨g, hg, h⟩ := Turtle.bind_ok h
  obtain ⟨b, hb, h⟩ := Turtle.bind_ok h
  cases h
  have hr := isMachine_of_divide? hr
  have hg := isMachine_of_divide? hg
  have hb := isMachine_of_divide? hb
  refine isMachine_fract (isMachine_div ?_ rfl)
  refine isMachine_ite _ (isMachine_sub hb hg) (isMachine_ite _ ?_ ?_)
  · exact isMachine_sub (isMachine_add rfl hr) hb
  · exact isMachine_sub (isMachine_add rfl hg) hr

theorem ofMachine_of_toHls {c : Rgb Quantity} {d : Hls Quantity} (h : c.toHls = .ok d) : d.OfMachine := by
  obtain ⟨lightness, hl, h⟩ := Turtle.bind_ok h
  have hlightness : lightness.isMachine = true := Quantity.isMachine_of_kept? (Quantity.isInteger_div _ _) hl
  by_cases hgrey : (c.least == c.most) = true
  · rw [if_pos hgrey] at h
    cases h
    exact ⟨rfl, hlightness, rfl⟩
  · rw [if_neg hgrey] at h
    obtain ⟨saturation, hs, h⟩ := Turtle.bind_ok h
    obtain ⟨hue, hh, h⟩ := Turtle.bind_ok h
    cases h
    exact ⟨isMachine_of_hue hh, hlightness, isMachine_of_saturation hs⟩

/-- **The colour of a depth is made of machine numbers**, whatever the depth and the time are. -/
theorem ofMachine_of_barkColour {depth time : Quantity} {c : Rgb Quantity} (h : barkColour depth time = .ok c) :
    c.OfMachine := by
  obtain ⟨_, -, h⟩ := Turtle.bind_ok h
  obtain ⟨hls, hh, h⟩ := Turtle.bind_ok h
  obtain ⟨l, hl, h⟩ := Turtle.bind_ok h
  cases h
  have hparts : hls.OfMachine := ofMachine_of_toHls hh
  have hlightness : l.isMachine = true := by
    refine Quantity.isMachine_of_kept? ?_ hl
    simp [Quantity.isInteger_of_isMachine hparts.lightness]
  have hupper : (upper l 0.0).isMachine = true := Quantity.isMachine_ite _ rfl hlightness
  exact Hls.ofMachine_toRgb ⟨hparts.hue, Quantity.isMachine_ite _ rfl hupper, hparts.saturation⟩

/-! ## Poses and branches -/

/-- A pose without integers in its place, its direction and its depth. Its radius may be one if `whole` is true. -/
structure Pose.Plain (whole : Bool) (p : Pose Quantity) : Prop where
  position : p.position.Plain
  direction : p.direction.Plain
  depth : p.depth.isInteger = false
  radius : p.radius.isInteger = true → whole = true

/-- A branch without integers other than radii, which may be integers if `whole` is true. -/
structure Branch.Plain (whole : Bool) (b : Branch Quantity) : Prop where
  start : b.start.Plain
  stop : b.stop.Plain
  orientation : b.orientation.Plain
  length : b.length.isInteger = false
  radiusStart : b.radiusStart.isInteger = true → whole = true
  radiusEnd : b.radiusEnd.isInteger = true → whole = true
  colour : b.colour.OfMachine
  depth : b.depth.isInteger = false

namespace Turtle

variable {G S : Type} {t : Turtle Quantity G S} {whole : Bool}

/-- An integer comes of a product of integers only. -/
theorem isInteger_left_of_mul {a b : Quantity} (h : (a * b).isInteger = true) : a.isInteger = true := by
  rw [Quantity.isInteger_mul, Bool.and_eq_true] at h
  exact h.1

theorem plain_of_segment? {p : Pose Quantity} (hp : p.Plain whole) {u : Quantity} {b : Branch Quantity}
    (h : t.segment? p u = .ok b) : b.Plain whole := by
  obtain ⟨hcolour, hseg⟩ := eq_of_segment? h
  have hlength : (segmentLength t.grammar p u).isInteger = false := by simp [segmentLength]
  rw [hseg]
  exact ⟨hp.position, Vec3.plain_add hp.position _, plain_rotationFromUp _, hlength,
    fun h => hp.radius (isInteger_left_of_mul h), hp.radius, ofMachine_of_barkColour hcolour, hp.depth⟩

/-- **Every symbol keeps integers out**, whatever numbers and axes there are. -/
theorem reads_plain (t : Turtle Quantity G S) (whole : Bool) : t.Reads fun _ p => p.Plain whole where
  forward hb hp := { hp with position := (plain_of_segment? hp hb).stop }
  turn _ hp := { hp with
    direction := plain_rotateAbout _ _ _
    depth := by simp [turned, hp.depth] }
  opening hp := { hp with
    direction := Vec3.plain_normalizeOr _ hp.direction
    depth := by simp [opened, hp.depth]
    radius := fun h => hp.radius (isInteger_left_of_mul h) }
  closing hp := { hp with depth := by simp [closed, hp.depth] }
  unmatched _ hp := { hp with depth := by simp [closed, hp.depth] }
  idle _ hp := hp

/-- **The branches of a run hold no integers** but for radii, and none there unless the radius of the plant is one. -/
theorem plain_of_interpret {gen : G} {sampler : S} {s : Word} {w : Walk Quantity G S} {bs : List (Branch Quantity)}
    (h : t.interpret gen sampler s = (w, .ok bs)) : ∀ b ∈ bs, b.Plain t.grammar.radius.isInteger := by
  have hstart : (startPose t.grammar).Plain t.grammar.radius.isInteger :=
    ⟨⟨rfl, rfl, rfl⟩, ⟨rfl, rfl, rfl⟩, rfl, id⟩
  intro b hb
  obtain ⟨i, hi, hbi⟩ := forward_of_mem h hb
  obtain ⟨v, v', b', hpre, hstep, hb', -⟩ := branch_of_forward h hi
  rw [hbi] at hb'
  cases hb'
  exact plain_of_segment? ((reads_plain t _).poses hstart hpre).1 (segment_of_step hstep)

end Turtle

/-! ## Stored forms -/

theorem eq_of_settled? {R : Type} [Arith R] {x y : R} (h : settled? x = .ok y) : y = Arith.settle x :=
  Turtle.eq_of_kept? h

theorem Quantity.eq_of_settled? {x y : Quantity} (hx : x.isInteger = false) (h : settled? x = .ok y) : y = x :=
  (TurtlePlant.eq_of_settled? h).trans (settle_of_not_integer hx)

theorem Vec3.eq_of_settled? {v v' : Vec3 Quantity} (hv : v.Plain) (h : v.settled? = .ok v') : v' = v := by
  obtain ⟨x, hx, h⟩ := Turtle.bind_ok h
  obtain ⟨y, hy, h⟩ := Turtle.bind_ok h
  obtain ⟨z, hz, h⟩ := Turtle.bind_ok h
  cases h
  rw [Quantity.eq_of_settled? hv.x hx, Quantity.eq_of_settled? hv.y hy, Quantity.eq_of_settled? hv.z hz]

/-- A machine number is stored as it is. -/
theorem Quantity.settled?_of_isMachine {q : Quantity} (h : q.isMachine = true) : settled? q = .ok q := by
  cases q with
  | integer n => cases h
  | machine x => rfl
  | lost => cases h

theorem Rgb.settled?_of_ofMachine {c : Rgb Quantity} (h : c.OfMachine) : c.settled? = .ok c := by
  unfold settled?
  rw [Quantity.settled?_of_isMachine h.red, Quantity.settled?_of_isMachine h.green, Quantity.settled?_of_isMachine h.blue]
  rfl

theorem Quaternion.eq_of_settled? {q q' : Quaternion Quantity} (hq : q.Plain) (h : q.settled? = .ok q') : q' = q := by
  obtain ⟨x, hx, h⟩ := Turtle.bind_ok h
  obtain ⟨y, hy, h⟩ := Turtle.bind_ok h
  obtain ⟨z, hz, h⟩ := Turtle.bind_ok h
  obtain ⟨w, hw, h⟩ := Turtle.bind_ok h
  cases h
  rw [Quantity.eq_of_settled? hq.x hx, Quantity.eq_of_settled? hq.y hy, Quantity.eq_of_settled? hq.z hz,
    Quantity.eq_of_settled? hq.w hw]

/-- A branch with its radii in their stored forms. -/
def Branch.settleRadii (b : Branch Quantity) : Branch Quantity :=
  { b with radiusStart := b.radiusStart.settle, radiusEnd := b.radiusEnd.settle }

/-- **Nothing but radii changes when a branch is stored.** -/
theorem Branch.eq_of_settled? {b b' : Branch Quantity} {whole : Bool} (hb : b.Plain whole) (h : b.settled? = .ok b') :
    b' = b.settleRadii := by
  obtain ⟨start, hstart, h⟩ := Turtle.bind_ok h
  obtain ⟨stop, hstop, h⟩ := Turtle.bind_ok h
  obtain ⟨orientation, horientation, h⟩ := Turtle.bind_ok h
  obtain ⟨length, hlength, h⟩ := Turtle.bind_ok h
  obtain ⟨radiusStart, hradiusStart, h⟩ := Turtle.bind_ok h
  obtain ⟨radiusEnd, hradiusEnd, h⟩ := Turtle.bind_ok h
  obtain ⟨colour, hcolour, h⟩ := Turtle.bind_ok h
  obtain ⟨depth, hdepth, h⟩ := Turtle.bind_ok h
  cases h
  rw [Vec3.eq_of_settled? hb.start hstart, Vec3.eq_of_settled? hb.stop hstop,
    Quaternion.eq_of_settled? hb.orientation horientation, Quantity.eq_of_settled? hb.length hlength,
    TurtlePlant.eq_of_settled? hradiusStart, TurtlePlant.eq_of_settled? hradiusEnd,
    ← Except.ok.inj ((Rgb.settled?_of_ofMachine hb.colour).symm.trans hcolour), Quantity.eq_of_settled? hb.depth hdepth]
  rfl

/-- A branch whose radii are no integers is in its stored form. -/
theorem Branch.settleRadii_of_plain {b : Branch Quantity} (hb : b.Plain false) : b.settleRadii = b := by
  have hstart : b.radiusStart.isInteger = false := Bool.eq_false_iff.mpr fun h => Bool.false_ne_true (hb.radiusStart h)
  have hend : b.radiusEnd.isInteger = false := Bool.eq_false_iff.mpr fun h => Bool.false_ne_true (hb.radiusEnd h)
  unfold settleRadii
  rw [Quantity.settle_of_not_integer hstart, Quantity.settle_of_not_integer hend]

/-- Whether everything about a branch but its colour has a stored form. -/
def Branch.storable (b : Branch Quantity) : Bool :=
  b.start.settled?.isOk && b.stop.settled?.isOk && b.orientation.settled?.isOk && (TurtlePlant.settled? b.length).isOk &&
  (TurtlePlant.settled? b.radiusStart).isOk && (TurtlePlant.settled? b.radiusEnd).isOk &&
  (TurtlePlant.settled? b.depth).isOk

theorem eq_ok_of_isOk {ε α : Type} {x : Except ε α} (h : x.isOk = true) : ∃ a, x = .ok a := by
  cases x with
  | error e => cases h
  | ok a => exact ⟨a, rfl⟩

/-- A colour that was found has a stored form. -/
theorem Branch.settled?_of_storable {b : Branch Quantity} (h : b.storable = true) (hc : b.colour.OfMachine) :
    ∃ b', b.settled? = .ok b' := by
  simp only [storable, Bool.and_eq_true, and_assoc] at h
  obtain ⟨hstart, hstop, horientation, hlength, hradiusStart, hradiusEnd, hdepth⟩ := h
  obtain ⟨start, hstart⟩ := eq_ok_of_isOk hstart
  obtain ⟨stop, hstop⟩ := eq_ok_of_isOk hstop
  obtain ⟨orientation, horientation⟩ := eq_ok_of_isOk horientation
  obtain ⟨length, hlength⟩ := eq_ok_of_isOk hlength
  obtain ⟨radiusStart, hradiusStart⟩ := eq_ok_of_isOk hradiusStart
  obtain ⟨radiusEnd, hradiusEnd⟩ := eq_ok_of_isOk hradiusEnd
  obtain ⟨depth, hdepth⟩ := eq_ok_of_isOk hdepth
  unfold settled?
  rw [hstart, hstop, horientation, hlength, hradiusStart, hradiusEnd, Rgb.settled?_of_ofMachine hc, hdepth]
  exact ⟨_, rfl⟩

end TurtlePlant
