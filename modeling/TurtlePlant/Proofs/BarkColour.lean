import TurtlePlant.Proofs.Exact
import TurtlePlant.Colour.Bark

/-!
# Exact bark colours

On exact numbers every depth and time have a colour with parts in `[0, 1]` (`barkColour_ok`). Each stage of the way there
stays in the range that the next one asks for:

- the gradient stays among the colours with such parts (`inUnit_barkGradient`);
- such a colour has a hue, and a lightness and a saturation in `[0, 1]` (`toHls_ok`), because its spread is zero where a
  divisor of its saturation would be;
- a lightness that is moved is put back into `[0, 1]` (`offsetLightness_ok`);
- a hue with a lightness and a saturation in `[0, 1]` is a colour with parts in `[0, 1]` (`inUnit_toRgb`).
-/

namespace TurtlePlant

/-- A colour whose parts are in `[0, 1]`. -/
structure Rgb.InUnit (c : Rgb ℝ) : Prop where
  red : c.red ∈ Set.Icc 0 1
  green : c.green ∈ Set.Icc 0 1
  blue : c.blue ∈ Set.Icc 0 1

/-- A hue with a lightness and a saturation in `[0, 1]`. -/
structure Hls.InUnit (c : Hls ℝ) : Prop where
  lightness : c.lightness ∈ Set.Icc 0 1
  saturation : c.saturation ∈ Set.Icc 0 1

namespace Exact

/-! ## The gradient -/

theorem lerp_mem {a b t : ℝ} (ha : a ∈ Set.Icc 0 1) (hb : b ∈ Set.Icc 0 1) (ht : t ∈ Set.Icc 0 1) :
    lerp a b t ∈ Set.Icc 0 1 := by
  obtain ⟨ha0, ha1⟩ := ha
  obtain ⟨hb0, hb1⟩ := hb
  obtain ⟨ht0, ht1⟩ := ht
  have hl : lerp a b t = (1 - t) * a + t * b := by unfold lerp; norm_num
  have h1 : 0 ≤ 1 - t := by linarith
  rw [hl]
  refine ⟨by positivity, ?_⟩
  calc (1 - t) * a + t * b ≤ (1 - t) * 1 + t * 1 := by gcongr
    _ = 1 := by ring

/-- A blend of colours is a colour. -/
theorem inUnit_lerp {a b : Rgb ℝ} (ha : a.InUnit) (hb : b.InUnit) {t : ℝ} (ht : t ∈ Set.Icc 0 1) :
    (a.lerp b t).InUnit :=
  ⟨lerp_mem ha.red hb.red ht, lerp_mem ha.green hb.green ht, lerp_mem ha.blue hb.blue ht⟩

/-- Three bytes are a colour. -/
theorem inUnit_ofBytes {r g b : Nat} (hr : r ≤ 255) (hg : g ≤ 255) (hb : b ≤ 255) :
    (Rgb.ofBytes r g b : Rgb ℝ).InUnit := by
  have hbyte : ∀ {n : Nat}, n ≤ 255 → (Rgb.ofBytes n n n : Rgb ℝ).red ∈ Set.Icc 0 1 := by
    intro n hn
    have hcast : (n : ℝ) ≤ 255 := by exact_mod_cast hn
    have hred : (Rgb.ofBytes n n n : Rgb ℝ).red = (n : ℝ) / 255 := by
      have h : (Arith.ofInt (n : Int) : ℝ) = n := Int.cast_natCast n
      show Arith.ofInt (n : Int) / 255.0 = _
      rw [h]
      norm_num
    rw [hred]
    constructor
    · positivity
    · rw [div_le_one (by norm_num)]
      exact hcast
  exact ⟨hbyte hr, hbyte hg, hbyte hb⟩

/-- The gradient stays among the colours. -/
theorem inUnit_barkGradient (depth : ℝ) : (barkGradient depth).InUnit := by
  have htrunk : (trunkColour : Rgb ℝ).InUnit := inUnit_ofBytes (by decide) (by decide) (by decide)
  have hbranch : (branchColour : Rgb ℝ).InUnit := inUnit_ofBytes (by decide) (by decide) (by decide)
  have htwig : (twigColour : Rgb ℝ).InUnit := inUnit_ofBytes (by decide) (by decide) (by decide)
  have h5 : (twigDepth : ℝ) = 5 := by norm_num [twigDepth]
  have h3 : (gradientSplit : ℝ) = 3 / 10 := by norm_num [gradientSplit]
  unfold barkGradient
  simp only [lower_eq, upper_eq]
  generalize ht : min (max depth 0.0) twigDepth / twigDepth = t
  have ht0 : 0 ≤ t := by
    rw [← ht, h5]
    have : (0 : ℝ) ≤ max depth 0.0 := le_max_of_le_right (by norm_num)
    positivity
  have ht1 : t ≤ 1 := by
    rw [← ht, h5, div_le_one (by norm_num)]
    exact min_le_right _ _
  rw [h3]
  split_ifs with hlt
  · exact inUnit_lerp htrunk hbranch ⟨by positivity, by linarith⟩
  · have hle : 3 / 10 ≤ t := not_lt.mp hlt
    refine inUnit_lerp hbranch htwig ⟨?_, ?_⟩
    · apply div_nonneg
      · linarith
      · norm_num
    · rw [div_le_one (by norm_num)]; norm_num; linarith

/-! ## Hue, lightness and saturation -/

theorem most_eq (c : Rgb ℝ) : c.most = max (max c.red c.green) c.blue := by simp only [Rgb.most, upper_eq]

theorem least_eq (c : Rgb ℝ) : c.least = min (min c.red c.green) c.blue := by simp only [Rgb.least, lower_eq]

theorem least_le_most (c : Rgb ℝ) : c.least ≤ c.most := by
  rw [least_eq, most_eq]
  exact (min_le_right _ _).trans (le_max_right _ _)

theorem least_nonneg {c : Rgb ℝ} (hc : c.InUnit) : 0 ≤ c.least := by
  rw [least_eq]
  exact le_min (le_min hc.red.1 hc.green.1) hc.blue.1

theorem most_le_one {c : Rgb ℝ} (hc : c.InUnit) : c.most ≤ 1 := by
  rw [most_eq]
  exact max_le (max_le hc.red.2 hc.green.2) hc.blue.2

/-- A colour with parts in `[0, 1]` that are not all equal has a saturation in `[0, 1]`. -/
theorem saturation_ok {c : Rgb ℝ} (hc : c.InUnit) (hne : c.least ≠ c.most) :
    ∃ s ∈ Set.Icc (0 : ℝ) 1, c.saturation = .ok s := by
  have hlt : c.least < c.most := lt_of_le_of_ne (least_le_most c) hne
  have h0 := least_nonneg hc
  have h1 := most_le_one hc
  have hspread : 0 ≤ c.most - c.least := by linarith
  have hdark : 0 < c.most + c.least := by linarith
  have hlight : 0 < 2 - (c.most + c.least) := by linarith
  unfold Rgb.saturation
  simp only [two_eq, divide?_eq hdark.ne', divide?_eq hlight.ne']
  split_ifs
  · refine ⟨_, ⟨div_nonneg hspread hdark.le, (div_le_one hdark).mpr ?_⟩, rfl⟩
    linarith
  · refine ⟨_, ⟨div_nonneg hspread hlight.le, (div_le_one hlight).mpr ?_⟩, rfl⟩
    linarith

/-- A colour with parts that are not all equal has a hue. -/
theorem hue_ok {c : Rgb ℝ} (hne : c.least ≠ c.most) : ∃ h, c.hue = .ok h := by
  have hspread : c.most - c.least ≠ 0 := sub_ne_zero.mpr hne.symm
  unfold Rgb.hue
  simp only [divide?_eq hspread]
  exact ⟨_, rfl⟩

theorem lightness_mem {c : Rgb ℝ} (hc : c.InUnit) : (c.most + c.least) / 2 ∈ Set.Icc (0 : ℝ) 1 := by
  have h0 := least_nonneg hc
  have h1 := most_le_one hc
  have hle := least_le_most c
  constructor
  · linarith
  · linarith

/-- **Every colour has a hue, a lightness and a saturation**, the latter two in `[0, 1]`. -/
theorem toHls_ok {c : Rgb ℝ} (hc : c.InUnit) : ∃ h : Hls ℝ, c.toHls = .ok h ∧ h.InUnit := by
  have hl := lightness_mem hc
  unfold Rgb.toHls
  rw [two_eq, zero_eq, kept?_eq, ok_bind]
  by_cases heq : c.least = c.most
  · rw [if_pos ((beq_iff _ _).mpr heq)]
    exact ⟨_, rfl, hl, le_rfl, zero_le_one⟩
  · obtain ⟨s, hs, hsat⟩ := saturation_ok hc heq
    obtain ⟨h, hh⟩ := hue_ok heq
    rw [if_neg (fun h => heq ((beq_iff _ _).mp h)), hsat, hh]
    exact ⟨_, rfl, hl, hs⟩

/-! ## Back to red, green and blue -/

theorem channel_eq (low high hue : ℝ) : Hls.channel low high hue =
    if Int.fract hue < 1 / 6 then low + (high - low) * (Int.fract hue * 6)
    else if Int.fract hue < 1 / 2 then high
    else if Int.fract hue < 2 / 3 then low + (high - low) * ((2 / 3 - Int.fract hue) * 6)
    else low := by
  have h : Hls.channel low high hue =
      if Int.fract hue < 1.0 / 6.0 then low + (high - low) * Int.fract hue * 6.0
      else if Int.fract hue < 0.5 then high
      else if Int.fract hue < 2.0 / 3.0 then low + (high - low) * (2.0 / 3.0 - Int.fract hue) * 6.0
      else low := rfl
  rw [h]
  norm_num [mul_assoc]

/-- A point between the ends of an interval. -/
theorem mix_mem {low high x : ℝ} (h : low ≤ high) (hx : x ∈ Set.Icc (0 : ℝ) 1) :
    low + (high - low) * x ∈ Set.Icc low high := by
  obtain ⟨h0, h1⟩ := hx
  have hspread : 0 ≤ high - low := sub_nonneg.mpr h
  constructor
  · exact le_add_of_nonneg_right (mul_nonneg hspread h0)
  · calc low + (high - low) * x ≤ low + (high - low) * 1 := by gcongr
      _ = high := by ring

/-- In each of the four sectors a part of a colour is between its least and its greatest one. -/
theorem channel_mem {low high : ℝ} (h : low ≤ high) (hue : ℝ) : Hls.channel low high hue ∈ Set.Icc low high := by
  have h0 : 0 ≤ Int.fract hue := Int.fract_nonneg hue
  rw [channel_eq]
  split_ifs with h1 h2 h3
  · exact mix_mem h ⟨by linarith, by linarith⟩
  · exact ⟨h, le_rfl⟩
  · exact mix_mem h ⟨by linarith, by linarith⟩
  · exact ⟨le_rfl, h⟩

/-- The greatest part is between the lightness and twice the lightness, so the least one is not below zero. -/
theorem high_mem {c : Hls ℝ} (hc : c.InUnit) : c.high ∈ Set.Icc c.lightness 1 ∧ c.high ≤ 2 * c.lightness := by
  obtain ⟨⟨hl0, hl1⟩, hs0, hs1⟩ := hc
  have hl : 0 ≤ 1 - c.lightness := sub_nonneg.mpr hl1
  have hs : 0 ≤ 1 - c.saturation := sub_nonneg.mpr hs1
  have h1 : 0 ≤ c.lightness * c.saturation := mul_nonneg hl0 hs0
  have h2 : 0 ≤ c.lightness * (1 - c.saturation) := mul_nonneg hl0 hs
  have h3 : 0 ≤ (1 - c.lightness) * c.saturation := mul_nonneg hl hs0
  have h4 : 0 ≤ (1 - c.lightness) * (1 - c.saturation) := mul_nonneg hl hs
  unfold Hls.high
  norm_num only
  split_ifs with hdark
  · refine ⟨⟨?_, ?_⟩, ?_⟩ <;> linarith
  · refine ⟨⟨?_, ?_⟩, ?_⟩ <;> linarith

/-- **Every hue with a lightness and a saturation in `[0, 1]` is a colour.** -/
theorem inUnit_toRgb {c : Hls ℝ} (hc : c.InUnit) : c.toRgb.InUnit := by
  obtain ⟨⟨hl, h1⟩, h2⟩ := high_mem hc
  have hlow : 0 ≤ 2 * c.lightness - c.high := sub_nonneg.mpr h2
  have hle : 2 * c.lightness - c.high ≤ c.high := by linarith
  have hmem : ∀ hue, Hls.channel (2 * c.lightness - c.high) c.high hue ∈ Set.Icc (0 : ℝ) 1 := fun hue =>
    Set.Icc_subset_Icc hlow h1 (channel_mem hle hue)
  unfold Hls.toRgb
  simp only [two_eq]
  split_ifs
  · exact ⟨hc.lightness, hc.lightness, hc.lightness⟩
  · exact ⟨hmem _, hmem _, hmem _⟩

/-- **A colour with its lightness moved is a colour**, by whatever amount it is moved. -/
theorem offsetLightness_ok {c : Rgb ℝ} (hc : c.InUnit) (amount : ℝ) :
    ∃ d : Rgb ℝ, c.offsetLightness amount = .ok d ∧ d.InUnit := by
  obtain ⟨h, hh, hu⟩ := toHls_ok hc
  have hclamp : lower (upper (h.lightness + amount) 0.0) 1.0 ∈ Set.Icc (0 : ℝ) 1 := by
    rw [lower_eq, upper_eq]
    norm_num
  unfold Rgb.offsetLightness
  rw [hh]
  exact ⟨_, rfl, inUnit_toRgb ⟨hclamp, hu.saturation⟩⟩

/-- **Every depth has a colour at every time.** -/
theorem barkColour_ok (depth time : ℝ) : ∃ c : Rgb ℝ, barkColour depth time = .ok c ∧ c.InUnit :=
  offsetLightness_ok (inUnit_barkGradient depth) (Real.sin (time * lightnessFrequency + depth) * lightnessAmplitude)

end Exact

end TurtlePlant
