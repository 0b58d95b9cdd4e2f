import Mathlib.Tactic.IntervalCases
import TurtlePlant.Proofs.BarkColour

/-!
# The circle of hues

A colour whose parts are not all equal has a place on a circle of six sixths (`Sixth`), each of which leads from one pure hue
to the next: there one part is the least, one is the greatest, and the third goes from one to the other (`Sixth.colour`). On
exact numbers a hue and the colour of its place are found from each other: `wheel_sixth` one way, `hue_colour` the other, and
both the hues (`exists_sixth`) and the colours (`exists_sixth_colour`) are all on the circle.

So a colour comes back from its hue, lightness and saturation (`toRgb_of_toHls`), and these from their colour unless that is
black or white (`toHls_toRgb`). Hence to move the lightness is to move nothing else, and moves add up:
`lightness_moves_alone`.
-/

namespace TurtlePlant

/-! ## Six sixths of a circle -/

/-- A sixth of the circle of hues, named for the pure hue that it starts from. -/
inductive Sixth where
  | red | yellow | green | cyan | blue | magenta
  deriving DecidableEq, Repr

namespace Sixth

/-- How many sixths there are before this one. -/
def before : Sixth → ℕ
  | red => 0
  | yellow => 1
  | green => 2
  | cyan => 3
  | blue => 4
  | magenta => 5

/-- The hue a part `t` of the way through a sixth. -/
noncomputable def hue (k : Sixth) (t : ℝ) : ℝ := (k.before + t) / 6

/-- The colour a part `t` of the way through a sixth, between a least part and a greatest one. -/
def colour (k : Sixth) (low high t : ℝ) : Rgb ℝ :=
  match k with
  | red => ⟨high, low + (high - low) * t, low⟩
  | yellow => ⟨low + (high - low) * (1 - t), high, low⟩
  | green => ⟨low, high, low + (high - low) * t⟩
  | cyan => ⟨low, low + (high - low) * (1 - t), high⟩
  | blue => ⟨low + (high - low) * t, low, high⟩
  | magenta => ⟨high, low, low + (high - low) * (1 - t)⟩

end Sixth

/-- The colour of a hue between a least part and a greatest one. -/
noncomputable def Hls.wheel (low high hue : ℝ) : Rgb ℝ :=
  ⟨channel low high (hue + 1 / 3), channel low high hue, channel low high (hue - 1 / 3)⟩

/-- A colour with each part handed on to the next one. -/
def Rgb.turned (c : Rgb ℝ) : Rgb ℝ := ⟨c.blue, c.red, c.green⟩

namespace Exact

variable {low high t : ℝ}

/-! ## From a hue to its colour -/

section Channel

variable {x : ℝ}

/-- A part rises over the first sixth of its way around the circle. -/
theorem channel_rise (hx : x ∈ Set.Icc (0 : ℝ) (1 / 6)) : Hls.channel low high x = low + (high - low) * (x * 6) := by
  obtain ⟨h0, h1⟩ := hx
  rw [channel_eq, Int.fract_eq_self.mpr ⟨h0, by linarith⟩]
  rcases h1.lt_or_eq with h | h
  · rw [if_pos h]
  · rw [h]
    norm_num

/-- It stays at the top until half of the way. -/
theorem channel_top (hx : x ∈ Set.Icc (1 / 6 : ℝ) (1 / 2)) : Hls.channel low high x = high := by
  obtain ⟨h0, h1⟩ := hx
  rw [channel_eq, Int.fract_eq_self.mpr ⟨by linarith, by linarith⟩, if_neg h0.not_gt]
  rcases h1.lt_or_eq with h | h
  · rw [if_pos h]
  · rw [h]
    norm_num

/-- It falls over the next sixth. -/
theorem channel_fall (hx : x ∈ Set.Icc (1 / 2 : ℝ) (2 / 3)) :
    Hls.channel low high x = low + (high - low) * ((2 / 3 - x) * 6) := by
  obtain ⟨h0, h1⟩ := hx
  rw [channel_eq, Int.fract_eq_self.mpr ⟨by linarith, by linarith⟩, if_neg (by linarith), if_neg h0.not_gt]
  rcases h1.lt_or_eq with h | h
  · rw [if_pos h]
  · rw [h]
    norm_num

/-- A whole turn makes no difference. -/
theorem channel_add_one (x : ℝ) : Hls.channel low high (x + 1) = Hls.channel low high x := by
  rw [channel_eq, channel_eq, Int.fract_add_one]

/-- And it stays at the bottom for the rest, which ends where the circle is closed. -/
theorem channel_bottom (hx : x ∈ Set.Icc (-1 / 3 : ℝ) 0) : Hls.channel low high x = low := by
  obtain ⟨h0, h1⟩ := hx
  rcases h1.lt_or_eq with h | h
  · rw [← channel_add_one, channel_eq, Int.fract_eq_self.mpr ⟨by linarith, by linarith⟩, if_neg (by linarith),
      if_neg (by linarith), if_neg (by linarith)]
  · rw [h, channel_rise (by norm_num)]
    ring

end Channel

/-- A third of the circle further, the parts have changed places. -/
theorem wheel_add_third (hue : ℝ) : Hls.wheel low high (hue + 1 / 3) = (Hls.wheel low high hue).turned := by
  have hred : Hls.channel low high (hue + 1 / 3 + 1 / 3) = Hls.channel low high (hue - 1 / 3) := by
    rw [← channel_add_one (hue - 1 / 3)]
    congr 1
    ring
  unfold Hls.wheel Rgb.turned
  rw [hred, add_sub_cancel_right]

/-- **A hue has the colour of its place on the circle.** -/
theorem wheel_sixth (k : Sixth) (ht : t ∈ Set.Icc (0 : ℝ) 1) : Hls.wheel low high (k.hue t) = k.colour low high t := by
  obtain ⟨h0, h1⟩ := ht
  have hred : Hls.wheel low high (Sixth.red.hue t) = Sixth.red.colour low high t := by
    unfold Hls.wheel Sixth.hue Sixth.before Sixth.colour
    rw [channel_top ⟨by linarith, by linarith⟩, channel_rise ⟨by linarith, by linarith⟩,
      channel_bottom ⟨by linarith, by linarith⟩]
    simp
  have hyellow : Hls.wheel low high (Sixth.yellow.hue t) = Sixth.yellow.colour low high t := by
    unfold Hls.wheel Sixth.hue Sixth.before Sixth.colour
    rw [channel_fall ⟨by linarith, by linarith⟩, channel_top ⟨by linarith, by linarith⟩,
      channel_bottom ⟨by linarith, by linarith⟩]
    congr 2
    ring
  -- the other sixths are a third of the circle further
  have hturn : ∀ k k' : Sixth, k'.before = k.before + 2 → k'.colour low high t = (k.colour low high t).turned →
      Hls.wheel low high (k.hue t) = k.colour low high t → Hls.wheel low high (k'.hue t) = k'.colour low high t := by
    intro k k' hbefore hcolour hk
    have hhue : k'.hue t = k.hue t + 1 / 3 := by
      unfold Sixth.hue
      rw [hbefore, Nat.cast_add, Nat.cast_ofNat]
      ring
    rw [hhue, wheel_add_third, hk, hcolour]
  have hgreen := hturn .red .green (by norm_num [Sixth.before]) rfl hred
  have hcyan := hturn .yellow .cyan (by norm_num [Sixth.before]) rfl hyellow
  cases k with
  | red => exact hred
  | yellow => exact hyellow
  | green => exact hgreen
  | cyan => exact hcyan
  | blue => exact hturn .green .blue (by norm_num [Sixth.before]) rfl hgreen
  | magenta => exact hturn .cyan .magenta (by norm_num [Sixth.before]) rfl hcyan

/-- Every hue is in a sixth. -/
theorem exists_sixth {x : ℝ} (hx : x ∈ Set.Ico (0 : ℝ) 1) : ∃ k : Sixth, ∃ t ∈ Set.Icc (0 : ℝ) 1, x = k.hue t := by
  obtain ⟨h0, h1⟩ := hx
  obtain ⟨k, hk⟩ : ∃ k : Sixth, (k.before : ℝ) = ⌊x * 6⌋ := by
    have hlow : 0 ≤ ⌊x * 6⌋ := Int.floor_nonneg.mpr (by linarith)
    have hhigh : ⌊x * 6⌋ < 6 := Int.floor_lt.mpr (by norm_num; linarith)
    interval_cases ⌊x * 6⌋
    · exact ⟨.red, by norm_num [Sixth.before]⟩
    · exact ⟨.yellow, by norm_num [Sixth.before]⟩
    · exact ⟨.green, by norm_num [Sixth.before]⟩
    · exact ⟨.cyan, by norm_num [Sixth.before]⟩
    · exact ⟨.blue, by norm_num [Sixth.before]⟩
    · exact ⟨.magenta, by norm_num [Sixth.before]⟩
  refine ⟨k, Int.fract (x * 6), ⟨Int.fract_nonneg _, (Int.fract_lt_one _).le⟩, ?_⟩
  unfold Sixth.hue
  rw [hk, Int.floor_add_fract]
  ring

/-! ## From a colour to its hue -/

theorem mix_back_mem (h : low ≤ high) (ht : t ∈ Set.Icc (0 : ℝ) 1) :
    low + (high - low) * (1 - t) ∈ Set.Icc low high :=
  mix_mem h ⟨sub_nonneg.mpr ht.2, sub_le_self 1 ht.1⟩

theorem most_colour (k : Sixth) (h : low ≤ high) (ht : t ∈ Set.Icc (0 : ℝ) 1) : (k.colour low high t).most = high := by
  obtain ⟨-, hup⟩ := mix_mem h ht
  obtain ⟨-, hdown⟩ := mix_back_mem h ht
  rw [most_eq]
  cases k <;> simp [Sixth.colour, h, hup, hdown]

theorem least_colour (k : Sixth) (h : low ≤ high) (ht : t ∈ Set.Icc (0 : ℝ) 1) : (k.colour low high t).least = low := by
  obtain ⟨hup, -⟩ := mix_mem h ht
  obtain ⟨hdown, -⟩ := mix_back_mem h ht
  rw [least_eq]
  cases k <;> simp [Sixth.colour, h, hup, hdown]

theorem colour_same (k : Sixth) (x : ℝ) : k.colour x x t = ⟨x, x, x⟩ := by
  cases k <;> simp [Sixth.colour]

/-- A point between two ends is a part of the way from the lower one. -/
theorem exists_mix {mid : ℝ} (h : low ≤ mid) (h' : mid ≤ high) :
    ∃ t ∈ Set.Icc (0 : ℝ) 1, mid = low + (high - low) * t := by
  have hspread : 0 ≤ high - low := sub_nonneg.mpr (h.trans h')
  have hway : mid - low ≤ high - low := sub_le_sub_right h' low
  refine ⟨(mid - low) / (high - low), ⟨div_nonneg (sub_nonneg.mpr h) hspread, div_le_one_of_le₀ hway hspread⟩, ?_⟩
  rw [mul_div_cancel_of_imp', add_sub_cancel]
  intro hzero
  linarith

/-- And it is a part of the way from the higher one. -/
theorem exists_mix_back {mid : ℝ} (h : low ≤ mid) (h' : mid ≤ high) :
    ∃ t ∈ Set.Icc (0 : ℝ) 1, mid = low + (high - low) * (1 - t) := by
  obtain ⟨t, ⟨h0, h1⟩, hmid⟩ := exists_mix h h'
  exact ⟨1 - t, ⟨sub_nonneg.mpr h1, sub_le_self 1 h0⟩, by rw [sub_sub_cancel, hmid]⟩

/-- **Every colour is on the circle.** -/
theorem exists_sixth_colour (c : Rgb ℝ) : ∃ k : Sixth, ∃ t ∈ Set.Icc (0 : ℝ) 1, c = k.colour c.least c.most t := by
  suffices h : ∃ (k : Sixth) (low high : ℝ), low ≤ high ∧ ∃ t ∈ Set.Icc (0 : ℝ) 1, c = k.colour low high t by
    obtain ⟨k, low, high, hle, t, ht, rfl⟩ := h
    exact ⟨k, t, ht, by rw [least_colour k hle ht, most_colour k hle ht]⟩
  obtain ⟨r, g, b⟩ := c
  -- the order of the parts tells the sixth, and the middle one the way through it
  rcases le_total g r with hgr | hrg
  · rcases le_total b g with hbg | hgb
    · obtain ⟨t, ht, rfl⟩ := exists_mix hbg hgr
      exact ⟨.red, b, r, hbg.trans hgr, t, ht, rfl⟩
    · rcases le_total b r with hbr | hrb
      · obtain ⟨t, ht, rfl⟩ := exists_mix_back hgb hbr
        exact ⟨.magenta, g, r, hgr, t, ht, rfl⟩
      · obtain ⟨t, ht, rfl⟩ := exists_mix hgr hrb
        exact ⟨.blue, g, b, hgb, t, ht, rfl⟩
  · rcases le_total b r with hbr | hrb
    · obtain ⟨t, ht, rfl⟩ := exists_mix_back hbr hrg
      exact ⟨.yellow, b, g, hbr.trans hrg, t, ht, rfl⟩
    · rcases le_total b g with hbg | hgb
      · obtain ⟨t, ht, rfl⟩ := exists_mix hrb hbg
        exact ⟨.green, r, g, hrg, t, ht, rfl⟩
      · obtain ⟨t, ht, rfl⟩ := exists_mix_back hrg hgb
        exact ⟨.cyan, r, b, hrb, t, ht, rfl⟩

section Hue

variable {c : Rgb ℝ}

/-- The hue of a colour whose parts are not all equal, by the first of its greatest parts. -/
theorem hue_eq (hne : c.least ≠ c.most) :
    c.hue = .ok (Int.fract ((if c.red = c.most then (c.green - c.blue) / (c.most - c.least)
      else if c.green = c.most then 2 + (c.blue - c.red) / (c.most - c.least)
      else 4 + (c.red - c.green) / (c.most - c.least)) / 6)) := by
  have hspread : c.most - c.least ≠ 0 := sub_ne_zero.mpr hne.symm
  unfold Rgb.hue
  simp only [divide?_eq hspread, ok_bind, beq_iff, add_sub_assoc, div_sub_div_same, sub_sub_sub_cancel_left]
  norm_num only
  rfl

theorem least_cases (c : Rgb ℝ) : c.least = c.red ∨ c.least = c.green ∨ c.least = c.blue := by
  rw [least_eq]
  rcases min_choice (min c.red c.green) c.blue with h | h
  · rw [h]
    rcases min_choice c.red c.green with h | h
    · exact .inl h
    · exact .inr (.inl h)
  · exact .inr (.inr h)

theorem hue_of_red (hne : c.least ≠ c.most) (h : c.red = c.most) :
    c.hue = .ok (Int.fract ((c.green - c.blue) / (c.most - c.least) / 6)) := by
  rw [hue_eq hne, if_pos h]

/-- Where two parts are the greatest the third is the least, and either of them gives the hue. -/
theorem hue_of_green (hne : c.least ≠ c.most) (h : c.green = c.most) :
    c.hue = .ok (Int.fract ((2 + (c.blue - c.red) / (c.most - c.least)) / 6)) := by
  have hspread : c.most - c.least ≠ 0 := sub_ne_zero.mpr hne.symm
  rw [hue_eq hne]
  by_cases hr : c.red = c.most
  · rw [if_pos hr]
    rcases least_cases c with hl | hl | hl
    · exact absurd (hl.trans hr) hne
    · exact absurd (hl.trans h) hne
    · rw [h, hr, ← hl, div_self hspread, ← neg_sub c.most, neg_div, div_self hspread]
      norm_num
  · rw [if_neg hr, if_pos h]

theorem hue_of_blue (hne : c.least ≠ c.most) (h : c.blue = c.most) :
    c.hue = .ok (Int.fract ((4 + (c.red - c.green) / (c.most - c.least)) / 6)) := by
  have hspread : c.most - c.least ≠ 0 := sub_ne_zero.mpr hne.symm
  by_cases hr : c.red = c.most
  · rw [hue_of_red hne hr]
    rcases least_cases c with hl | hl | hl
    · exact absurd (hl.trans hr) hne
    · -- the hue below zero is the one a turn further
      rw [h, hr, ← hl, div_self hspread, ← neg_sub c.most, neg_div, div_self hspread, ← Int.fract_add_one]
      norm_num
    · exact absurd (hl.trans h) hne
  · by_cases hg : c.green = c.most
    · rw [hue_of_green hne hg]
      rcases least_cases c with hl | hl | hl
      · rw [h, hg, ← hl, div_self hspread, ← neg_sub c.most, neg_div, div_self hspread]
        norm_num
      · exact absurd (hl.trans hg) hne
      · exact absurd (hl.trans h) hne
    · rw [hue_eq hne, if_neg hr, if_neg hg]

/-- **A colour on the circle has the hue of its place**, also where two of the sixths meet. -/
theorem hue_colour (k : Sixth) (h : low < high) (ht : t ∈ Set.Icc (0 : ℝ) 1) :
    (k.colour low high t).hue = .ok (Int.fract (k.hue t)) := by
  have hspread : high - low ≠ 0 := sub_ne_zero.mpr h.ne'
  have hup : ∀ u, (low + (high - low) * u - low) / (high - low) = u := by
    intro u
    rw [add_sub_cancel_left, mul_div_cancel_left₀ _ hspread]
  have hdown : ∀ u, (low - (low + (high - low) * u)) / (high - low) = -u := by
    intro u
    rw [← neg_sub, neg_div, hup]
  have hmost := most_colour k h.le ht
  have hleast := least_colour k h.le ht
  have hne : (k.colour low high t).least ≠ (k.colour low high t).most := by
    rw [hleast, hmost]
    exact h.ne
  cases k with
  | red =>
    rw [hue_of_red hne hmost.symm, hmost, hleast]
    simp only [Sixth.colour, Sixth.hue, Sixth.before, hup, Nat.cast_zero, zero_add]
  | yellow =>
    have hplace : 2 + -(1 - t) = 1 + t := by ring
    rw [hue_of_green hne hmost.symm, hmost, hleast]
    simp only [Sixth.colour, Sixth.hue, Sixth.before, hdown, hplace, Nat.cast_one]
  | green =>
    rw [hue_of_green hne hmost.symm, hmost, hleast]
    simp only [Sixth.colour, Sixth.hue, Sixth.before, hup, Nat.cast_ofNat]
  | cyan =>
    have hplace : 4 + -(1 - t) = 3 + t := by ring
    rw [hue_of_blue hne hmost.symm, hmost, hleast]
    simp only [Sixth.colour, Sixth.hue, Sixth.before, hdown, hplace, Nat.cast_ofNat]
  | blue =>
    rw [hue_of_blue hne hmost.symm, hmost, hleast]
    simp only [Sixth.colour, Sixth.hue, Sixth.before, hup, Nat.cast_ofNat]
  | magenta =>
    have hplace : -(1 - t) / 6 + 1 = (5 + t) / 6 := by ring
    rw [hue_of_red hne hmost.symm, hmost, hleast]
    simp only [Sixth.colour, Sixth.hue, Sixth.before, hdown, Nat.cast_ofNat]
    rw [← Int.fract_add_one, hplace]

end Hue

/-! ## Hue, lightness and saturation, and back -/

/-! ### Lightness and saturation -/

/-- How far the parts of a colour can be from its lightness. -/
noncomputable def room (lightness : ℝ) : ℝ := min lightness (1 - lightness)

theorem room_pos {l : ℝ} (hl : l ∈ Set.Ioo (0 : ℝ) 1) : 0 < room l := lt_min hl.1 (sub_pos.mpr hl.2)

/-- A dark colour has its lightness as room, and a light one what its lightness leaves. -/
theorem room_eq (l : ℝ) : room l = if l ≤ 1 / 2 then l else 1 - l := by
  unfold room
  split_ifs
  · exact min_eq_left (by linarith)
  · exact min_eq_right (by linarith)

theorem high_eq (c : Hls ℝ) : c.high = c.lightness + room c.lightness * c.saturation := by
  rw [room_eq]
  unfold Hls.high
  norm_num only
  split_ifs <;> ring

theorem saturation_eq {c : Rgb ℝ} (hl : (c.most + c.least) / 2 ∈ Set.Ioo (0 : ℝ) 1) :
    c.saturation = .ok ((c.most - c.least) / (2 * room ((c.most + c.least) / 2))) := by
  obtain ⟨h0, h1⟩ := hl
  have hdark : c.most + c.least ≠ 0 := by linarith
  have hlight : 2 - (c.most + c.least) ≠ 0 := by linarith
  rw [room_eq]
  unfold Rgb.saturation
  simp only [two_eq, divide?_eq hdark, divide?_eq hlight]
  norm_num only
  split_ifs
  · rw [mul_div_cancel₀ _ two_ne_zero]
  · rw [mul_sub, mul_div_cancel₀ _ two_ne_zero, mul_one]

theorem toHls_of_ne {c : Rgb ℝ} (hne : c.least ≠ c.most) {h s : ℝ} (hs : c.saturation = .ok s) (hh : c.hue = .ok h) :
    c.toHls = .ok ⟨h, (c.most + c.least) / 2, s⟩ := by
  unfold Rgb.toHls
  rw [two_eq, kept?_eq, ok_bind, if_neg (fun h => hne ((beq_iff _ _).mp h)), hs, hh]
  rfl

theorem toHls_of_eq {c : Rgb ℝ} (h : c.least = c.most) : c.toHls = .ok ⟨0, c.most, 0⟩ := by
  unfold Rgb.toHls
  rw [two_eq, kept?_eq, ok_bind, if_pos ((beq_iff _ _).mpr h), h, zero_eq, add_self_div_two]
  rfl

theorem toRgb_of_grey {c : Hls ℝ} (h : c.saturation = 0) : c.toRgb = ⟨c.lightness, c.lightness, c.lightness⟩ := by
  unfold Hls.toRgb
  rw [zero_eq, if_pos ((beq_iff _ _).mpr h)]

theorem toRgb_of_ne {c : Hls ℝ} (h : c.saturation ≠ 0) :
    c.toRgb = Hls.wheel (2 * c.lightness - c.high) c.high c.hue := by
  unfold Hls.toRgb
  rw [zero_eq, if_neg (fun h' => h ((beq_iff _ _).mp h')), two_eq]
  norm_num only
  rfl

/-! ### There and back -/

/-- What is found of a colour: a hue with a lightness and a saturation, where grey has the hue zero. -/
structure Canonical (c : Hls ℝ) : Prop extends c.InUnit where
  hue : c.hue ∈ Set.Ico 0 1
  grey : c.saturation = 0 → c.hue = 0

/-- **The hue, the lightness and the saturation come back from their colour**, unless it is black or white. -/
theorem toHls_toRgb {c : Hls ℝ} (hc : Canonical c) (hl : c.lightness ∈ Set.Ioo (0 : ℝ) 1) : c.toRgb.toHls = .ok c := by
  by_cases hs : c.saturation = 0
  · have hgrey : c.toRgb.toHls = .ok ⟨0, c.lightness, 0⟩ := by
      rw [toRgb_of_grey hs, toHls_of_eq]
      · simp [most_eq]
      · simp [most_eq, least_eq]
    obtain ⟨hue, lightness, saturation⟩ := c
    obtain rfl : saturation = 0 := hs
    obtain rfl : hue = 0 := hc.grey rfl
    exact hgrey
  · have hroom := room_pos hl
    have hspos : 0 < c.saturation := hc.saturation.1.lt_of_ne' hs
    have hhalf : c.high - (2 * c.lightness - c.high) = 2 * room c.lightness * c.saturation := by
      rw [high_eq]
      ring
    have hlt : 2 * c.lightness - c.high < c.high := by
      have : 0 < 2 * room c.lightness * c.saturation := by positivity
      linarith
    obtain ⟨k, t, ht, hhue⟩ := exists_sixth hc.hue
    have hmost := most_colour k hlt.le ht
    have hleast := least_colour k hlt.le ht
    have hmiddle : (c.high + (2 * c.lightness - c.high)) / 2 = c.lightness := by ring
    rw [toRgb_of_ne hs, hhue, wheel_sixth k ht]
    rw [toHls_of_ne (by rw [hmost, hleast]; exact hlt.ne) (saturation_eq (by rwa [hmost, hleast, hmiddle]))
      (hue_colour k hlt ht), hmost, hleast, hmiddle, hhalf, ← hhue, Int.fract_eq_self.mpr hc.hue,
      mul_div_cancel_left₀ _ (by positivity)]

/-- Whole turns make no difference to a colour. -/
theorem wheel_fract (low high hue : ℝ) : Hls.wheel low high (Int.fract hue) = Hls.wheel low high hue := by
  have hturns : ∀ x : ℝ, Hls.channel low high (x + ⌊hue⌋) = Hls.channel low high x := by
    intro x
    rw [channel_eq, channel_eq, Int.fract_add_intCast]
  unfold Hls.wheel
  rw [← hturns (Int.fract hue + 1 / 3), ← hturns (Int.fract hue), ← hturns (Int.fract hue - 1 / 3),
    add_right_comm, sub_add_eq_add_sub, Int.fract_add_floor]

/-- The hue of a colour leads back to it, between its least and its greatest part. -/
theorem exists_hue {c : Rgb ℝ} (hne : c.least ≠ c.most) :
    ∃ x ∈ Set.Ico (0 : ℝ) 1, c.hue = .ok x ∧ Hls.wheel c.least c.most x = c := by
  obtain ⟨k, t, ht, hcolour⟩ := exists_sixth_colour c
  have hhue := hue_colour k (lt_of_le_of_ne (least_le_most c) hne) ht
  rw [← hcolour] at hhue
  refine ⟨Int.fract (k.hue t), ⟨Int.fract_nonneg _, Int.fract_lt_one _⟩, hhue, ?_⟩
  rw [wheel_fract, wheel_sixth k ht, ← hcolour]

/-- **A colour comes back from what is found of it.** -/
theorem toRgb_of_toHls {c : Rgb ℝ} (hc : c.InUnit) : ∃ d : Hls ℝ, c.toHls = .ok d ∧ Canonical d ∧ d.toRgb = c := by
  obtain ⟨d, hd, hunit⟩ := toHls_ok hc
  refine ⟨d, hd, ?_⟩
  by_cases hne : c.least = c.most
  · obtain ⟨k, t, -, hcolour⟩ := exists_sixth_colour c
    rw [hne, colour_same] at hcolour
    rw [toHls_of_eq hne] at hd
    cases hd
    exact ⟨⟨hunit, ⟨le_rfl, zero_lt_one⟩, fun _ => rfl⟩, (toRgb_of_grey rfl).trans hcolour.symm⟩
  · obtain ⟨x, hx, hhue, hwheel⟩ := exists_hue hne
    have hlt : c.least < c.most := lt_of_le_of_ne (least_le_most c) hne
    have hl : (c.most + c.least) / 2 ∈ Set.Ioo (0 : ℝ) 1 := by
      have h0 := least_nonneg hc
      have h1 := most_le_one hc
      constructor <;> linarith
    rw [toHls_of_ne hne (saturation_eq hl) hhue] at hd
    cases hd
    have hroom := room_pos hl
    have hpos : 0 < (c.most - c.least) / (2 * room ((c.most + c.least) / 2)) :=
      div_pos (sub_pos.mpr hlt) (mul_pos two_pos hroom)
    have hhigh : (Hls.mk x ((c.most + c.least) / 2)
        ((c.most - c.least) / (2 * room ((c.most + c.least) / 2)))).high = c.most := by
      rw [high_eq]
      field_simp
      ring
    refine ⟨⟨hunit, hx, fun hgrey => absurd hgrey hpos.ne'⟩, ?_⟩
    rw [toRgb_of_ne hpos.ne', hhigh, mul_div_cancel₀ _ two_ne_zero, add_sub_cancel_left]
    exact hwheel

/-! ## Moving the lightness -/

theorem offsetLightness_eq {c : Rgb ℝ} {d : Hls ℝ} (h : c.toHls = .ok d) (amount : ℝ) :
    c.offsetLightness amount = .ok (Hls.toRgb { d with lightness := min (max (d.lightness + amount) 0) 1 }) := by
  unfold Rgb.offsetLightness
  rw [h]
  simp only [ok_bind, kept?_eq, lower_eq, upper_eq, zero_eq, one_eq]
  rfl

theorem clamp_of_mem {l : ℝ} (h : l ∈ Set.Icc (0 : ℝ) 1) : min (max l 0) 1 = l := by
  rw [max_eq_left h.1, min_eq_left h.2]

end Exact

open Exact in
/-- **To move the lightness of a colour is to move nothing else**, as long as it stays strictly between black and white, and
moves add up, of which the last may go beyond. No move is no change. -/
theorem lightness_moves_alone {c : Rgb ℝ} (hc : c.InUnit) :
    c.offsetLightness 0 = .ok c ∧
      ∃ h : Hls ℝ, c.toHls = .ok h ∧ ∀ a, 0 < h.lightness + a → h.lightness + a < 1 →
        ∃ d, c.offsetLightness a = .ok d ∧ d.toHls = .ok { h with lightness := h.lightness + a } ∧
          ∀ b, ∃ e, d.offsetLightness b = .ok e ∧ c.offsetLightness (a + b) = .ok e := by
  obtain ⟨h, hh, hcanonical, hback⟩ := toRgb_of_toHls hc
  refine ⟨?_, h, hh, ?_⟩
  · rw [offsetLightness_eq hh, add_zero, clamp_of_mem hcanonical.lightness, hback]
  · intro a hlow hhigh
    have hmoved : Canonical { h with lightness := h.lightness + a } :=
      { hcanonical with lightness := ⟨hlow.le, hhigh.le⟩ }
    have hfound := toHls_toRgb hmoved ⟨hlow, hhigh⟩
    refine ⟨_, ?_, hfound, ?_⟩
    · rw [offsetLightness_eq hh, clamp_of_mem ⟨hlow.le, hhigh.le⟩]
    · intro b
      refine ⟨_, offsetLightness_eq hfound b, ?_⟩
      rw [offsetLightness_eq hh, add_assoc]

open Exact in
/-- A dark yellow, of which two parts are the greatest, made light and dark again. -/
theorem lightness_moves_alone_yellow :
    let yellow : Rgb ℝ := ⟨1 / 2, 1 / 2, 0⟩
    yellow.InUnit ∧ (∃ h : Hls ℝ, yellow.toHls = .ok h ∧ 0 < h.lightness + 1 / 2 ∧ h.lightness + 1 / 2 < 1) ∧
      ∃ d, yellow.offsetLightness (1 / 2) = .ok d ∧ d.offsetLightness (-(1 / 2)) = .ok yellow := by
  intro yellow
  have hc : yellow.InUnit := ⟨by norm_num, by norm_num, by norm_num⟩
  have hmost : yellow.most = 1 / 2 := by norm_num [most_eq, yellow]
  have hleast : yellow.least = 0 := by norm_num [least_eq, yellow]
  have hne : yellow.least ≠ yellow.most := by norm_num [hmost, hleast]
  obtain ⟨x, -, hhue, -⟩ := exists_hue hne
  have hfound := toHls_of_ne hne (saturation_eq (by norm_num [hmost, hleast])) hhue
  obtain ⟨hsame, h, hh, hmove⟩ := lightness_moves_alone hc
  have hl : h.lightness = 1 / 4 := by
    rw [hfound] at hh
    cases hh
    norm_num [hmost, hleast]
  have hlow : 0 < h.lightness + 1 / 2 := by norm_num [hl]
  have hhigh : h.lightness + 1 / 2 < 1 := by norm_num [hl]
  obtain ⟨d, hd, -, hadd⟩ := hmove (1 / 2) hlow hhigh
  obtain ⟨e, he, hsum⟩ := hadd (-(1 / 2))
  rw [add_neg_cancel, hsame] at hsum
  cases hsum
  exact ⟨hc, ⟨h, hh, hlow, hhigh⟩, d, hd, he⟩

end TurtlePlant
