import TurtlePlant.Colour.Bark
import TurtlePlant.Proofs.Doubles

/-!
# Bark colours on machine numbers

A finite depth has a bark colour at every angle that has a sine, and the angle has one unless the time is infinite.

- Bounds (`Between`) are carried through sums, differences and products whose ends can be represented.
- A depth is coloured by a blend of two of three colours that are given by bytes (`exists_barkGradient`), and a blend of
  two numbers is at least half the lower one (`between_lerp`). So every colour is a `Shade`: its red is not dark, and it is
  never as bright as can be.
- Nothing is then divided by zero on the way to hue, lightness and saturation (`toHls_ok`): a sum of two parts is above
  zero and below two, where it would have to be one of these (`saturation_ok_iff`), and a spread of two numbers that differ
  is not zero.
- A depth is `Moderate` when it is at most 2⁵³ in size. It stays so when less than a half is added or taken off, and an
  angle that it is part of is infinite only if the time is (`isInf_angle`).
-/

namespace TurtlePlant

namespace Machine

open Float.Model (Format)
open Float.Model.UnpackedFloat

/-! ## Bounds -/

/-- A finite number that lies between two others. -/
structure Between (lo hi : ℚ) (x : Float) : Prop where
  finite : IsFinite x
  ge : lo ≤ val x
  le : val x ≤ hi

variable {x y : Float} {lo hi lo' hi' r r' q : ℚ}

/-- What is rounded stays between numbers that can be represented. -/
theorem Near.between (h : Near x q) (hr : Representable r) (hr' : Representable r') (hge : r ≤ q) (hle : q ≤ r') :
    Between r r' x :=
  ⟨h.finite, h.nearest.ge_of_ge hr hge, h.nearest.le_of_le hr' hle⟩

theorem Between.mono (h : Between lo hi x) (hlo : r ≤ lo) (hhi : hi ≤ r') : Between r r' x :=
  ⟨h.finite, hlo.trans h.ge, h.le.trans hhi⟩

theorem Between.val_eq (h : Between q q x) : val x = q := le_antisymm h.le h.ge

/-- What is between zero and two is well within bounds. -/
theorem within_two (h0 : 0 ≤ q) (h2 : q ≤ 2) : |q| ≤ 2 ^ 1023 := within_of_nonneg h0 (by linarith)

theorem Between.add (hx : Between lo hi x) (hy : Between lo' hi' y) (hr : Representable r) (hr' : Representable r')
    (hge : r ≤ lo + lo') (hle : hi + hi' ≤ r') (h0 : 0 ≤ r) (h2 : r' ≤ 2) : Between r r' (x + y) := by
  have hge' : r ≤ val x + val y := hge.trans (add_le_add hx.ge hy.ge)
  have hle' : val x + val y ≤ r' := (add_le_add hx.le hy.le).trans hle
  exact (near_add hx.finite hy.finite (within_two (h0.trans hge') (hle'.trans h2))).between hr hr' hge' hle'

theorem Between.sub (hx : Between lo hi x) (hy : Between lo' hi' y) (hr : Representable r) (hr' : Representable r')
    (hge : r ≤ lo - hi') (hle : hi - lo' ≤ r') (h0 : 0 ≤ r) (h2 : r' ≤ 2) : Between r r' (x - y) := by
  have hge' : r ≤ val x - val y := hge.trans (sub_le_sub hx.ge hy.le)
  have hle' : val x - val y ≤ r' := (sub_le_sub hx.le hy.ge).trans hle
  exact (near_sub hx.finite hy.finite (within_two (h0.trans hge') (hle'.trans h2))).between hr hr' hge' hle'

theorem Between.mul (hx : Between lo hi x) (hy : Between lo' hi' y) (hr : Representable r) (hr' : Representable r')
    (hlo : 0 ≤ lo) (hlo' : 0 ≤ lo') (hge : r ≤ lo * lo') (hle : hi * hi' ≤ r') (h0 : 0 ≤ r) (h2 : r' ≤ 2) :
    Between r r' (x * y) := by
  have hge' : r ≤ val x * val y := hge.trans (mul_le_mul hx.ge hy.ge hlo' (hlo.trans hx.ge))
  have hle' : val x * val y ≤ r' :=
    (mul_le_mul hx.le hy.le (hlo'.trans hy.ge) (hlo.trans (hx.ge.trans hx.le))).trans hle
  exact (near_mul hx.finite hy.finite (within_two (h0.trans hge') (hle'.trans h2))).between hr hr' hge' hle'

/-- Fractions of sixteen bits can be represented. -/
theorem representable_div {k : ℕ} (hk : k ≤ 2 ^ 53) : Representable (k / 65536) := by
  have hmul := representable_mul_zpow (j := -16) hk (by decide)
  rwa [show (2 : ℚ) ^ (-16 : ℤ) = 65536⁻¹ by norm_num, ← div_eq_mul_inv] at hmul

theorem representable_one : Representable 1 := ⟨1, 0, by decide, by decide, by norm_num⟩

theorem representable_two : Representable 2 := ⟨2, 0, by decide, by decide, by norm_num⟩

theorem representable_half : Representable (1 / 2) := ⟨1, -1, by decide, by decide, by norm_num⟩

theorem representable_quarter : Representable (1 / 4) := ⟨1, -2, by decide, by decide, by norm_num⟩

/-- A whole decimal. -/
theorem between_whole {m : ℕ} (n : ℕ) (h : m = 10 * n) (hm : m < 2 ^ 53) :
    Between n n (OfScientific.ofScientific m true 1) := by
  have hq : (m : ℚ) / 10 = n := by
    rw [h]
    push_cast
    ring
  have hn : Representable n := representable_natCast (by omega)
  exact (near_ofScientific hm).between hn hn hq.ge hq.le

theorem between_zero : Between 0 0 (0.0 : Float) := by exact_mod_cast between_whole 0 rfl (by decide)

theorem between_one : Between 1 1 (1.0 : Float) := by exact_mod_cast between_whole 1 rfl (by decide)

theorem between_two : Between 2 2 (2.0 : Float) := by exact_mod_cast between_whole 2 rfl (by decide)

theorem between_half : Between (1 / 2) (1 / 2) (0.5 : Float) :=
  (near_ofScientific (m := 5) (by decide)).between representable_half representable_half (by norm_num) (by norm_num)

/-! ## Blends -/

/-- **A blend of two numbers** is at least half the lower one, and at most their sum. -/
theorem between_lerp {a b s : Float} (ha : Between lo hi a) (hb : Between lo hi' b) (hs : Between 0 1 s)
    (hr : Representable r) (hr' : Representable r') (hhi : Representable hi) (hhi' : Representable hi')
    (h0 : 0 ≤ r) (hge : r ≤ lo / 2) (hle : hi + hi' ≤ r') (h2 : r' ≤ 2) : Between r r' (lerp a b s) := by
  have hlo : lo ≤ hi := ha.ge.trans ha.le
  have hlo' : lo ≤ hi' := hb.ge.trans hb.le
  have hlo0 : 0 ≤ lo := by linarith
  show Between r r' ((1.0 - s) * a + s * b)
  -- one of the two shares is at least a half
  rcases le_total (val s) (1 / 2) with h | h
  · have hrest : Between (1 / 2) 1 (1.0 - s) :=
      between_one.sub ⟨hs.finite, hs.ge, h⟩ representable_half representable_one (by norm_num) (by norm_num) (by norm_num)
        (by norm_num)
    have hleft : Between r hi ((1.0 - s) * a) :=
      hrest.mul ha hr hhi (by norm_num) hlo0 (by linarith) (by linarith) h0 (by linarith)
    have hright : Between 0 hi' (s * b) :=
      hs.mul hb representable_zero hhi' le_rfl hlo0 (by linarith) (by linarith) le_rfl (by linarith)
    exact hleft.add hright hr hr' (by linarith) hle h0 h2
  · have hrest : Between 0 1 (1.0 - s) :=
      between_one.sub hs representable_zero representable_one (by norm_num) (by norm_num) le_rfl (by norm_num)
    have hleft : Between 0 hi ((1.0 - s) * a) :=
      hrest.mul ha representable_zero hhi le_rfl hlo0 (by linarith) (by linarith) le_rfl (by linarith)
    have hright : Between r hi' (s * b) :=
      (show Between (1 / 2) 1 s from ⟨hs.finite, h, hs.le⟩).mul hb hr hhi' (by norm_num) hlo0 (by linarith) (by linarith)
        h0 (by linarith)
    exact hleft.add hright hr hr' (by linarith) hle h0 h2

/-- A part of a colour that is given by a byte. -/
theorem between_byte {n : ℕ} (h : n ≤ 255) :
    Between ((257 * n : ℕ) / 65536) ((257 * n + 1 : ℕ) / 65536) (Arith.ofInt (n : ℤ) / (255.0 : Float)) := by
  have hn := near_ofInt (n := n) (by omega)
  have hnval : val (Float.ofInt n) = n := hn.val_eq (representable_natCast (by omega))
  have h255 : Between 255 255 (255.0 : Float) := by exact_mod_cast between_whole 255 rfl (by decide)
  have hn' : (n : ℚ) ≤ 255 := by exact_mod_cast h
  have hdiv := near_div hn.finite h255.finite (by rw [h255.val_eq]; norm_num)
    (by rw [hnval, h255.val_eq]; exact within_two (by positivity) (by linarith))
  rw [hnval, h255.val_eq] at hdiv
  refine hdiv.between (representable_div (by omega)) (representable_div (by omega)) ?_ ?_
  · push_cast
    linarith
  · push_cast
    linarith

/-! ## The gradient -/

theorem finite_lower (hx : IsFinite x) (hy : IsFinite y) : IsFinite (lower x y) := by
  unfold lower
  split
  · exact hy
  · exact hx

theorem finite_upper (hx : IsFinite x) (hy : IsFinite y) : IsFinite (upper x y) := by
  unfold upper
  split
  · exact hy
  · exact hx

theorem val_lower (hx : IsFinite x) (hy : IsFinite y) : val (lower x y) = min (val x) (val y) := by
  unfold lower
  split_ifs with h
  · exact (min_eq_right ((lt_iff hy hx).mp h).le).symm
  · exact (min_eq_left (not_lt.mp fun h' => h ((lt_iff hy hx).mpr h'))).symm

theorem val_upper (hx : IsFinite x) (hy : IsFinite y) : val (upper x y) = max (val x) (val y) := by
  unfold upper
  split_ifs with h
  · exact (max_eq_right ((lt_iff hx hy).mp h).le).symm
  · exact (max_eq_left (not_lt.mp fun h' => h ((lt_iff hx hy).mpr h'))).symm

/-- A quotient of numbers from zero on, of which the divisor is not the lower one. -/
theorem between_div (hx : IsFinite x) (hy : IsFinite y) (h0 : 0 ≤ val x) (hpos : 0 < val y) (hle : val x ≤ val y) :
    Between 0 1 (x / y) := by
  have hge : 0 ≤ val x / val y := div_nonneg h0 hpos.le
  have hle' : val x / val y ≤ 1 := (div_le_one hpos).mpr hle
  exact (near_div hx hy hpos.ne' (within_two hge (hle'.trans one_le_two))).between representable_zero representable_one hge
    hle'

theorem between_twigDepth : Between 5 5 (twigDepth : Float) := by exact_mod_cast between_whole 5 rfl (by decide)

theorem between_gradientSplit : Between (1 / 4) (1 / 2) (gradientSplit : Float) :=
  (near_ofScientific (m := 3) (by decide)).between representable_quarter representable_half (by norm_num) (by norm_num)

/-- How far a depth is on the way to that of the twigs. -/
theorem between_progress {depth : Float} (h : IsFinite depth) :
    Between 0 1 (lower (upper depth 0.0) twigDepth / twigDepth) := by
  have htwig := between_twigDepth
  have hu : IsFinite (upper depth 0.0) := finite_upper h between_zero.finite
  have hv : IsFinite (lower (upper depth 0.0) twigDepth) := finite_lower hu htwig.finite
  have hdepth : val (lower (upper depth 0.0) twigDepth) = min (max (val depth) 0) 5 := by
    have hl := val_lower hu htwig.finite
    rwa [val_upper h between_zero.finite, between_zero.val_eq, htwig.val_eq] at hl
  refine between_div hv htwig.finite ?_ ?_ ?_
  · rw [hdepth]
    exact le_min (le_max_right _ _) (by norm_num)
  · rw [htwig.val_eq]
    norm_num
  · rw [hdepth, htwig.val_eq]
    exact min_le_right _ _

/-- How far it is on the way from the branches to the twigs. -/
theorem between_rest {t : Float} (ht : Between 0 1 t) (hge : val gradientSplit ≤ val t) :
    Between 0 1 ((t - gradientSplit) / (1.0 - gradientSplit)) := by
  have hsplit := between_gradientSplit
  have hone := between_one
  have hpart := near_sub ht.finite hsplit.finite (within_two (by linarith) (by linarith [ht.le, hsplit.ge]))
  have hwhole := near_sub hone.finite hsplit.finite
    (within_two (by rw [hone.val_eq]; linarith [hsplit.le]) (by rw [hone.val_eq]; linarith [hsplit.ge]))
  have hrest : Between (1 / 2) 1 (1.0 - gradientSplit) :=
    hone.sub hsplit representable_half representable_one (by norm_num) (by norm_num) (by norm_num) (by norm_num)
  refine between_div hpart.finite hrest.finite ?_ (by linarith [hrest.ge]) ?_
  · exact hpart.nearest.ge_of_ge representable_zero (by linarith)
  · -- only the whole reaches the end
    rcases ht.le.lt_or_eq with hlt | heq
    · exact hpart.nearest.le_of_lt hwhole.nearest (by rw [hone.val_eq]; linarith)
    · rw [eq_of_val ht.finite hone.finite (heq.trans hone.val_eq.symm) (by rw [hone.val_eq]; exact one_ne_zero)]

/-- The colour of a depth is a blend of two of the three colours, in order. -/
theorem exists_barkGradient {depth : Float} (h : IsFinite depth) : ∃ s, Between 0 1 s ∧
    (barkGradient depth = trunkColour.lerp branchColour s ∨ barkGradient depth = branchColour.lerp twigColour s) := by
  have hsplit := between_gradientSplit
  obtain ⟨t, ht⟩ : ∃ t : Float, t = lower (upper depth 0.0) twigDepth / twigDepth := ⟨_, rfl⟩
  have hunit : Between 0 1 t := ht ▸ between_progress h
  unfold barkGradient
  simp only [← ht]
  split_ifs with hlt
  · have hle : val t ≤ val gradientSplit := ((lt_iff hunit.finite hsplit.finite).mp hlt).le
    exact ⟨t / gradientSplit, between_div hunit.finite hsplit.finite hunit.ge (by linarith [hsplit.ge]) hle, Or.inl rfl⟩
  · have hge : val gradientSplit ≤ val t := not_lt.mp fun h' => hlt ((lt_iff hunit.finite hsplit.finite).mpr h')
    exact ⟨(t - gradientSplit) / (1.0 - gradientSplit), between_rest hunit hge, Or.inr rfl⟩

/-- A part of a colour that is blended of two bytes. -/
theorem between_lerp_bytes {m n : ℕ} {s : Float} (hm : m ≤ 255) (hn : n ≤ 255) (hs : Between 0 1 s)
    (hr : Representable r) (hr' : Representable r') (h0 : 0 ≤ r) (hgem : r ≤ 257 * m / 131072)
    (hgen : r ≤ 257 * n / 131072) (hle : (257 * (m + n) + 2) / 65536 ≤ r') (h2 : r' ≤ 2) :
    Between r r' (lerp (Arith.ofInt (m : ℤ) / (255.0 : Float)) (Arith.ofInt (n : ℤ) / (255.0 : Float)) s) := by
  have hfirst : Between (2 * r) ((257 * m + 1 : ℕ) / 65536) (Arith.ofInt (m : ℤ) / (255.0 : Float)) :=
    (between_byte hm).mono (by push_cast; linarith) le_rfl
  have hsecond : Between (2 * r) ((257 * n + 1 : ℕ) / 65536) (Arith.ofInt (n : ℤ) / (255.0 : Float)) :=
    (between_byte hn).mono (by push_cast; linarith) le_rfl
  refine between_lerp hfirst hsecond hs hr hr' (representable_div (by omega)) (representable_div (by omega)) h0
    (by linarith) ?_ h2
  push_cast
  linarith

/-- A colour with a red that is not dark, and with a red and a blue that together are not as bright as can be. -/
structure Shade (c : Rgb Float) : Prop where
  red : Between (1 / 4) (106657 / 65536) c.red
  green : Between 0 1 c.green
  blue : Between 0 (23903 / 65536) c.blue

/-- Two colours with red parts from a half on, and other parts that are low enough, are blended to such a colour. -/
theorem shade_lerp {r g b r' g' b' : ℕ} {s : Float} (hs : Between 0 1 s) (hr : 128 ≤ r ∧ r ≤ 255)
    (hr' : 128 ≤ r' ∧ r' ≤ 255) (hred : r + r' ≤ 415) (hgreen : g + g' ≤ 253) (hblue : b + b' ≤ 93) :
    Shade ((Rgb.ofBytes r g b).lerp (Rgb.ofBytes r' g' b') s) := by
  have hr128 : (128 : ℚ) ≤ r := by exact_mod_cast hr.1
  have hr128' : (128 : ℚ) ≤ r' := by exact_mod_cast hr'.1
  have hred' : (r : ℚ) + r' ≤ 415 := by exact_mod_cast hred
  have hgreen' : (g : ℚ) + g' ≤ 253 := by exact_mod_cast hgreen
  have hblue' : (b : ℚ) + b' ≤ 93 := by exact_mod_cast hblue
  refine ⟨?_, ?_, ?_⟩
  · have hbound : Representable (106657 / 65536) := by exact_mod_cast representable_div (k := 106657) (by decide)
    exact between_lerp_bytes hr.2 hr'.2 hs representable_quarter hbound (by norm_num) (by linarith) (by linarith)
      (by linarith) (by norm_num)
  · exact between_lerp_bytes (by omega) (by omega) hs representable_zero representable_one le_rfl (by positivity)
      (by positivity) (by linarith) (by norm_num)
  · have hbound : Representable (23903 / 65536) := by exact_mod_cast representable_div (k := 23903) (by decide)
    exact between_lerp_bytes (by omega) (by omega) hs representable_zero hbound le_rfl (by positivity) (by positivity)
      (by linarith) (by norm_num)

/-- **Every depth has such a colour.** -/
theorem shade_barkGradient {depth : Float} (h : IsFinite depth) : Shade (barkGradient depth) := by
  obtain ⟨s, hs, hc | hc⟩ := exists_barkGradient h
  · rw [hc]
    exact shade_lerp hs (by decide) (by decide) (by decide) (by decide) (by decide)
  · rw [hc]
    exact shade_lerp hs (by decide) (by decide) (by decide) (by decide) (by decide)

/-! ## Hue, lightness and saturation -/

/-- Nothing is lost among machine numbers. -/
theorem kept?_eq (x : Float) : kept? x = .ok x := rfl

/-- Division by what is not zero. -/
theorem divide?_eq (hy : IsFinite y) (h0 : val y ≠ 0) (x : Float) : divide? x y = .ok (x / y) := by
  have hne : (y == (0.0 : Float)) = false := by
    rw [Bool.eq_false_iff]
    intro h
    exact h0 (((beq_iff_val hy between_zero.finite).mp h).trans between_zero.val_eq)
  unfold divide?
  rw [show (y == (0.0 : Float)) = false from hne]
  rfl

/-- A quotient is refused for a zero divisor only. -/
theorem divide?_ok_iff (hy : IsFinite y) : (∃ q, divide? x y = .ok q) ↔ val y ≠ 0 := by
  refine ⟨?_, fun h0 => ⟨_, divide?_eq hy h0 x⟩⟩
  rintro ⟨q, hq⟩ h0
  have hzero : (y == (0.0 : Float)) = true :=
    (beq_iff_val hy between_zero.finite).mpr (h0.trans between_zero.val_eq.symm)
  unfold divide? at hq
  rw [if_pos hzero] at hq
  cases hq

variable {c : Rgb Float}

theorem most_spec (hc : Shade c) : IsFinite c.most ∧ val c.most = max (max (val c.red) (val c.green)) (val c.blue) := by
  have hu := finite_upper hc.red.finite hc.green.finite
  refine ⟨finite_upper hu hc.blue.finite, ?_⟩
  unfold Rgb.most
  rw [val_upper hu hc.blue.finite, val_upper hc.red.finite hc.green.finite]

theorem least_spec (hc : Shade c) : IsFinite c.least ∧ val c.least = min (min (val c.red) (val c.green)) (val c.blue) := by
  have hl := finite_lower hc.red.finite hc.green.finite
  refine ⟨finite_lower hl hc.blue.finite, ?_⟩
  unfold Rgb.least
  rw [val_lower hl hc.blue.finite, val_lower hc.red.finite hc.green.finite]

/-- The greatest part of such a colour. -/
theorem between_most (hc : Shade c) : Between (1 / 4) (106657 / 65536) c.most := by
  obtain ⟨hfinite, hval⟩ := most_spec hc
  refine ⟨hfinite, ?_, ?_⟩
  · rw [hval]
    exact le_max_of_le_left (le_max_of_le_left hc.red.ge)
  · rw [hval]
    exact max_le (max_le hc.red.le (hc.green.le.trans (by norm_num))) (hc.blue.le.trans (by norm_num))

/-- The least part of such a colour. -/
theorem between_least (hc : Shade c) : Between 0 (23903 / 65536) c.least := by
  obtain ⟨hfinite, hval⟩ := least_spec hc
  refine ⟨hfinite, ?_, ?_⟩
  · rw [hval]
    exact le_min (le_min (le_trans (by norm_num) hc.red.ge) hc.green.ge) hc.blue.ge
  · rw [hval]
    exact min_le_of_right_le hc.blue.le

/-- The spread of a colour whose parts are not all equal. -/
theorem spread_ne_zero (hc : Shade c) (hne : (c.least == c.most) = false) :
    IsFinite (c.most - c.least) ∧ val (c.most - c.least) ≠ 0 := by
  have hm := between_most hc
  have hl := between_least hc
  have hle : val c.least ≤ val c.most := by
    rw [(most_spec hc).2, (least_spec hc).2]
    exact (min_le_right _ _).trans (le_max_right _ _)
  refine val_sub_ne_zero hm.finite hl.finite (within_two (by linarith) (by linarith [hm.le, hl.ge])) ?_
  intro heq
  rw [(beq_iff_val hl.finite hm.finite).mpr heq.symm] at hne
  cases hne

/-- A total of zero is that of a dark colour, and a total of two that of a light one. -/
theorem dark_of_ends {total : Float} (h : Between 0 2 total) :
    (val total = 0 → total / 2.0 ≤ 0.5) ∧ (val total = 2 → ¬ total / 2.0 ≤ 0.5) := by
  have hhalf : Near (total / 2.0) (val total / 2) := by
    have hnear := near_div h.finite between_two.finite (by rw [between_two.val_eq]; exact two_ne_zero)
    rw [between_two.val_eq] at hnear
    exact hnear (within_two (by linarith [h.ge]) (by linarith [h.le]))
  rw [le_iff hhalf.finite between_half.finite, between_half.val_eq]
  constructor
  · intro h0
    exact hhalf.nearest.le_of_le representable_half (by rw [h0]; norm_num)
  · intro h2 hle
    have hge := hhalf.nearest.ge_of_ge representable_one (by rw [h2, div_self two_ne_zero])
    linarith

/-- **A colour has a saturation unless its greatest and its least part add up to zero or to two**, as their total is
rounded. -/
theorem saturation_ok_iff (h : Between 0 2 (c.most + c.least)) :
    (∃ s, c.saturation = .ok s) ↔ val (c.most + c.least) ≠ 0 ∧ val (c.most + c.least) ≠ 2 := by
  obtain ⟨hdark, hlight⟩ := dark_of_ends h
  have hbound : |val (2.0 : Float) - val (c.most + c.least)| ≤ 2 ^ 1023 := by
    rw [between_two.val_eq]
    exact within_two (by linarith [h.le]) (by linarith [h.ge])
  have hrest := near_sub between_two.finite h.finite hbound
  have hzero := val_sub_eq_zero_iff between_two.finite h.finite hbound
  rw [between_two.val_eq] at hzero
  unfold Rgb.saturation
  dsimp only
  split_ifs with hle
  · have hne : val (c.most + c.least) ≠ 2 := fun h2 => hlight h2 hle
    exact (divide?_ok_iff h.finite).trans (and_iff_left hne).symm
  · have hne : val (c.most + c.least) ≠ 0 := fun h0 => hle (hdark h0)
    rw [divide?_ok_iff hrest.finite, and_iff_right hne]
    exact not_congr (hzero.trans eq_comm)

/-- One and the number before it add up to two, as machine numbers are rounded. -/
example : (⟨1.0, 1.0, 0.9999999999999999⟩ : Rgb Float).saturation = .error .divisionByZero := rfl

/-- **Such a colour has a saturation.** -/
theorem saturation_ok (hc : Shade c) : ∃ s, c.saturation = .ok s := by
  have hbound : Representable (130560 / 65536) := by exact_mod_cast representable_div (k := 130560) (by decide)
  have htotal : Between (1 / 4) (130560 / 65536) (c.most + c.least) :=
    (between_most hc).add (between_least hc) representable_quarter hbound (by norm_num) (by norm_num) (by norm_num)
      (by norm_num)
  have hge := htotal.ge
  have hle := htotal.le
  refine (saturation_ok_iff (htotal.mono (by norm_num) (by norm_num))).mpr ⟨?_, ?_⟩
  · linarith
  · linarith

/-- A colour whose parts are not all equal has a hue. -/
theorem hue_ok (hc : Shade c) (hne : (c.least == c.most) = false) : ∃ h, c.hue = .ok h := by
  obtain ⟨hfinite, h0⟩ := spread_ne_zero hc hne
  unfold Rgb.hue
  simp only [divide?_eq hfinite h0]
  exact ⟨_, rfl⟩

/-- **Such a colour has a hue, a lightness and a saturation.** -/
theorem toHls_ok (hc : Shade c) : ∃ h, c.toHls = .ok h := by
  unfold Rgb.toHls
  rw [kept?_eq]
  by_cases hne : c.least == c.most
  · exact ⟨⟨0.0, (c.most + c.least) / 2.0, 0.0⟩, by simp only [hne]; rfl⟩
  · obtain ⟨s, hs⟩ := saturation_ok hc
    obtain ⟨h, hh⟩ := hue_ok hc (Bool.not_eq_true _ ▸ hne)
    simp only [hne, hs, hh]
    exact ⟨_, rfl⟩

/-- Every depth has a colour at an angle that has a sine. -/
theorem barkColour_ok {depth time : Float} (h : IsFinite depth) (ht : (time * 0.1 + depth).isInf = false) :
    ∃ c, barkColour depth time = .ok c := by
  obtain ⟨hls, hhls⟩ := toHls_ok (shade_barkGradient h)
  have hsine : sine? (time * lightnessFrequency + depth) = .ok (time * 0.1 + depth).sin := by
    unfold sine?
    rw [show Scalar.isInfinite (time * lightnessFrequency + depth) = false from ht]
    rfl
  unfold barkColour
  rw [hsine]
  unfold Rgb.offsetLightness
  simp only [bind, Except.bind, hhls, kept?_eq]
  exact ⟨_, rfl⟩

theorem barkColour_infinite {depth time : Float} (ht : (time * 0.1 + depth).isInf = true) :
    barkColour depth time = .error .infiniteAngle := by
  have hsine : sine? (time * lightnessFrequency + depth) = .error .infiniteAngle := by
    unfold sine?
    rw [show Scalar.isInfinite (time * lightnessFrequency + depth) = true from ht]
    rfl
  unfold barkColour
  rw [hsine]
  rfl

/-! ## Angles -/

/-- A depth that is not so far from zero that something could come of adding to it for ever. -/
structure Moderate (x : Float) : Prop where
  finite : IsFinite x
  le : |val x| ≤ 2 ^ 53

theorem representable_room : Representable (2 ^ 1022) := ⟨1, 1022, by decide, by decide, by norm_num⟩

/-- An infinity comes back from its bits. -/
theorem unpack_infinity (s : Sign) : (Float.ofModel (.pack (.infinity s))).toModel.unpack = .infinity s := by
  cases s <;> rfl

/-- An infinite time makes an infinite angle. -/
theorem isInf_of_infinity {time depth : Float} {s : Sign} (ht : time.toModel.unpack = .infinity s) (h : IsFinite depth) :
    (time * 0.1 + depth).isInf = true := by
  obtain ⟨m, e, hm, htenth⟩ : ∃ m e hm, (0.1 : Float).toModel.unpack = .finite .positive m e hm := ⟨_, _, _, rfl⟩
  have hmul : (time * 0.1).toModel.unpack = .infinity (s * .positive) := by
    show (Float.ofModel (.pack (mul Format.binary64 time.toModel.unpack (0.1 : Float).toModel.unpack))).toModel.unpack = _
    rw [ht, htenth]
    exact unpack_infinity _
  have hadd : (time * 0.1 + depth).toModel.unpack = .infinity (s * .positive) := by
    show (Float.ofModel (.pack (add Format.binary64 (time * 0.1).toModel.unpack depth.toModel.unpack))).toModel.unpack = _
    obtain ⟨s', hd⟩ | ⟨s', m', e', hm', hd⟩ := Canonical.zero_or_finite h <;> rw [hmul, hd] <;>
      exact unpack_infinity _
  show (time * 0.1 + depth).toModel.unpack.isInf = true
  rw [hadd]
  rfl

/-- A time that is no number makes an angle that is none. -/
theorem isInf_of_nan {time : Float} (ht : time.toModel.unpack = .notANumber) (depth : Float) :
    (time * 0.1 + depth).isInf = false := by
  have hmul : (time * 0.1).toModel.unpack = .notANumber := by
    show (Float.ofModel (.pack (mul Format.binary64 time.toModel.unpack (0.1 : Float).toModel.unpack))).toModel.unpack = _
    rw [ht]
    rfl
  have hadd : (time * 0.1 + depth).toModel.unpack = .notANumber := by
    show (Float.ofModel (.pack (add Format.binary64 (time * 0.1).toModel.unpack depth.toModel.unpack))).toModel.unpack = _
    have hnan : ∀ u : Float.Model.UnpackedFloat, add Format.binary64 .notANumber u = .notANumber := by
      intro u
      cases u <;> rfl
    rw [hmul, hnan]
    rfl
  show (time * 0.1 + depth).toModel.unpack.isInf = false
  rw [hadd]
  rfl

/-- **An angle is infinite when its time is.** -/
theorem isInf_angle {depth : Float} (h : Moderate depth) (time : Float) : (time * 0.1 + depth).isInf = time.isInf := by
  rcases finite_or time with ⟨ht, hbound⟩ | ⟨s, hs⟩ | hnan
  · -- a tenth of a finite time leaves room for a depth
    have htenth : Between 0 (1 / 4) (0.1 : Float) :=
      (near_ofScientific (m := 1) (by decide)).between representable_zero representable_quarter (by norm_num) (by norm_num)
    have hroom : (2 : ℚ) ^ 1022 + 2 ^ 53 ≤ 2 ^ 1023 :=
      calc (2 : ℚ) ^ 1022 + 2 ^ 53 ≤ 2 ^ 1022 + 2 ^ 1022 :=
            add_le_add_right (pow_le_pow_right₀ one_le_two (by decide)) _
        _ = 2 ^ 1022 * 2 := (mul_two _).symm
        _ = 2 ^ 1023 := (pow_succ 2 1022).symm
    have hquarter : |val time * val (0.1 : Float)| ≤ 2 ^ 1022 := by
      rw [abs_mul, abs_of_nonneg htenth.ge]
      calc |val time| * val (0.1 : Float) ≤ 2 ^ 1024 * (1 / 4) := mul_le_mul hbound.le htenth.le htenth.ge (by positivity)
        _ = 2 ^ 1022 := by
          rw [show 1024 = 1022 + 2 from rfl, pow_add, mul_assoc, show (2 : ℚ) ^ 2 * (1 / 4) = 1 by norm_num, mul_one]
    have hmul := near_mul ht htenth.finite (hquarter.trans (pow_le_pow_right₀ one_le_two (by decide)))
    have hpart : |val (time * 0.1)| ≤ 2 ^ 1022 := hmul.nearest.abs_le_of_abs_le representable_room hquarter
    have hadd := near_add hmul.finite h.finite ((abs_add_le _ _).trans ((add_le_add hpart h.le).trans hroom))
    rw [isInf_of_finite hadd.finite, isInf_of_finite ht]
  · rw [isInf_of_infinity hs h.finite]
    show true = time.toModel.unpack.isInf
    rw [hs]
    rfl
  · rw [isInf_of_nan hnan]
    show false = time.toModel.unpack.isInf
    rw [hnan]
    rfl

/-! ## Depths -/

theorem representable_depth : Representable (2 ^ 53) := ⟨2 ^ 53, 0, by decide, by decide, by norm_num⟩

theorem moderate_zero : Moderate 0.0 := ⟨between_zero.finite, by rw [between_zero.val_eq, abs_zero]; positivity⟩

/-- A depth stays moderate when something small is added to it. -/
theorem Moderate.add (hx : Moderate x) (hy : Between 0 (1 / 2) y) : Moderate (x + y) := by
  obtain ⟨hlow, hhigh⟩ := abs_le.mp hx.le
  have hbound : |val x + val y| ≤ 2 ^ 1023 := within_bounds (abs_le.mpr ⟨by linarith [hy.ge], by linarith [hy.le]⟩)
  have hnear := near_add hx.finite hy.finite hbound
  refine ⟨hnear.finite, abs_le.mpr ⟨?_, hnear.nearest.le_of_le_add_half (by linarith [hy.le])⟩⟩
  exact hnear.nearest.ge_of_ge representable_depth.neg (by linarith [hy.ge])

/-- Or taken off it. -/
theorem Moderate.sub (hx : Moderate x) (hy : Between 0 (1 / 2) y) : Moderate (x - y) := by
  obtain ⟨hlow, hhigh⟩ := abs_le.mp hx.le
  have hbound : |val x - val y| ≤ 2 ^ 1023 := within_bounds (abs_le.mpr ⟨by linarith [hy.le], by linarith [hy.ge]⟩)
  have hnear := near_sub hx.finite hy.finite hbound
  refine ⟨hnear.finite, abs_le.mpr ⟨?_, hnear.nearest.le_of_le representable_depth (by linarith [hy.ge])⟩⟩
  have hneg := hnear.nearest.neg.le_of_le_add_half (by linarith [hy.le])
  linarith

end Machine

end TurtlePlant
