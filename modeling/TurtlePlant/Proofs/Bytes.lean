import Mathlib.Data.Rat.Floor
import TurtlePlant.Proofs.Exact
import TurtlePlant.Proofs.Shades
import TurtlePlant.View.Mesh

/-!
# Numbers as bytes

The byte of a number is the nearest integer, of two the even one, moved into `0, …, 255` (`IsByte`). Machine numbers are
brought to their bytes (`isByte_nearestByte`), and exact numbers are too (`Exact.isByte_nearestByte`).

- Whole parts of machine numbers are exact (`floor_eq`), and so is what is left over beside a whole part from zero on
  (`representable_fract`). So the rest is compared with a half as it is, and `roundHalfEven` finds the nearest integer.
- A product of finite numbers that is not finite has the sign of the exact one, which is as far beyond the bytes
  (`isByte_product_of_infinite`).
- The byte of `255` times a part of a colour is the part again, up to `1 / 510` (`IsByte.abs_div_sub_le`).
-/

namespace TurtlePlant

/-! ## The nearest integer -/

section Nearest

variable {K : Type} [CommRing K] [LinearOrder K] [IsStrictOrderedRing K] {n m : ℤ} {q : K} {k : ℕ}

/-- An integer that is no more than a half away from `q`, and that is even if it is a half away. -/
structure IsHalfEven (n : ℤ) (q : K) : Prop where
  near : 2 * |(n : K) - q| ≤ 1
  even : 2 * |(n : K) - q| = 1 → Even n

theorem IsHalfEven.bounds (h : IsHalfEven n q) : 2 * q - 1 ≤ 2 * n ∧ (2 * n : K) ≤ 2 * q + 1 := by
  have hnear := h.near
  have hle := le_abs_self ((n : K) - q)
  have hge := neg_abs_le ((n : K) - q)
  constructor <;> linarith

theorem IsHalfEven.le (hn : IsHalfEven n q) (hm : IsHalfEven m q) : m ≤ n := by
  by_contra hlt
  obtain ⟨hn1, -⟩ := hn.bounds
  obtain ⟨-, hm2⟩ := hm.bounds
  have hle : (m : K) ≤ (n + 1 : ℤ) := by
    push_cast
    linarith
  obtain rfl : m = n + 1 := le_antisymm (Int.cast_le.mp hle) (not_le.mp hlt)
  push_cast at hm2
  -- both are a half away, so both are even
  have hneven : Even n := hn.even (by rw [abs_of_nonpos (by linarith)]; linarith)
  have hmeven : Even (n + 1) := hm.even (by push_cast; rw [abs_of_nonneg (by linarith)]; linarith)
  exact Int.not_even_iff_odd.mpr hneven.add_one hmeven

/-- There is one such integer at most. -/
theorem IsHalfEven.unique (hn : IsHalfEven n q) (hm : IsHalfEven m q) : n = m := le_antisymm (hm.le hn) (hn.le hm)

/-- The whole part or the next integer, whichever is nearer, and if both are as near the even one. -/
def halfEven [FloorRing K] (q : K) : ℤ :=
  if Int.fract q < 1 - Int.fract q then ⌊q⌋
  else if 1 - Int.fract q < Int.fract q then ⌊q⌋ + 1
  else if ⌊q⌋ % 2 = 0 then ⌊q⌋ else ⌊q⌋ + 1

/-- **The nearest integer is found beside the whole part.** -/
theorem isHalfEven_halfEven [FloorRing K] (q : K) : IsHalfEven (halfEven q) q := by
  have hdown : |(⌊q⌋ : K) - q| = Int.fract q := by
    rw [abs_sub_comm, Int.self_sub_floor, Int.abs_fract]
  have hup : |((⌊q⌋ + 1 : ℤ) : K) - q| = 1 - Int.fract q := by
    have hcast : ((⌊q⌋ + 1 : ℤ) : K) - q = 1 - Int.fract q := by
      rw [← Int.self_sub_floor]
      push_cast
      ring
    rw [hcast, abs_of_nonneg (sub_nonneg.mpr (Int.fract_lt_one q).le)]
  unfold halfEven
  split_ifs with hlt hgt heven
  · exact ⟨by rw [hdown]; linarith, fun h => absurd (hdown ▸ h) (by linarith : 2 * Int.fract q < 1).ne⟩
  · exact ⟨by rw [hup]; linarith, fun h => absurd (hup ▸ h) (by linarith : 2 * (1 - Int.fract q) < 1).ne⟩
  · exact ⟨by rw [hdown]; linarith, fun _ => Int.even_iff.mpr heven⟩
  · refine ⟨by rw [hup]; linarith, fun _ => ?_⟩
    exact (Int.not_even_iff_odd.mp fun h => heven (Int.even_iff.mp h)).add_one

/-! ## Bytes -/

/-- The byte of a number: the nearest integer, of two the even one, moved into `0, …, 255`. -/
def IsByte (k : ℕ) (q : K) : Prop := ∃ n : ℤ, IsHalfEven n q ∧ (k : ℤ) = min (max n 0) 255

theorem IsByte.unique {l : ℕ} (hk : IsByte k q) (hl : IsByte l q) : k = l := by
  obtain ⟨n, hn, hk⟩ := hk
  obtain ⟨m, hm, hl⟩ := hl
  rw [hn.unique hm, ← hl] at hk
  exact_mod_cast hk

omit [IsStrictOrderedRing K] in
theorem IsByte.le (h : IsByte k q) : k ≤ 255 := by
  obtain ⟨n, -, hk⟩ := h
  omega

theorem isByte_of_ge [FloorRing K] (h : 255 ≤ q) : IsByte 255 q := by
  refine ⟨halfEven q, isHalfEven_halfEven q, ?_⟩
  obtain ⟨hn, -⟩ := (isHalfEven_halfEven q).bounds
  have hlt : ((254 : ℤ) : K) < halfEven q := by
    push_cast
    linarith
  have hlt' := Int.cast_lt.mp hlt
  omega

theorem isByte_of_nonpos [FloorRing K] (h : q ≤ 0) : IsByte 0 q := by
  refine ⟨halfEven q, isHalfEven_halfEven q, ?_⟩
  obtain ⟨-, hn⟩ := (isHalfEven_halfEven q).bounds
  have hlt : (halfEven q : K) < (1 : ℤ) := by
    push_cast
    linarith
  have hlt' := Int.cast_lt.mp hlt
  omega

/-- Between the least byte and the greatest one nothing is moved. -/
theorem IsHalfEven.mem (hn : IsHalfEven n q) (h0 : 0 ≤ q) (h255 : q ≤ 255) : 0 ≤ n ∧ n ≤ 255 := by
  obtain ⟨hn1, hn2⟩ := hn.bounds
  have hge : ((-1 : ℤ) : K) < n := by
    push_cast
    linarith
  have hle : (n : K) < (256 : ℤ) := by
    push_cast
    linarith
  have hge' := Int.cast_lt.mp hge
  have hle' := Int.cast_lt.mp hle
  omega

theorem IsHalfEven.isByte (hn : IsHalfEven n q) (h0 : 0 ≤ q) (h255 : q ≤ 255) : IsByte n.toNat q := by
  have hmem := hn.mem h0 h255
  exact ⟨n, hn, by omega⟩

end Nearest

/-- **A part of a colour comes back from its byte**, up to half a step. -/
theorem IsByte.abs_div_sub_le {k : ℕ} {v : ℝ} (h : IsByte k (255 * v)) (h0 : 0 ≤ v) (h1 : v ≤ 1) :
    |(k : ℝ) / 255 - v| ≤ 1 / 510 := by
  obtain ⟨n, hn, hk⟩ := h
  obtain rfl : n = k := by
    have hmem := hn.mem (by linarith) (by linarith)
    omega
  have hnear : 2 * |(k : ℝ) - 255 * v| ≤ 1 := by exact_mod_cast hn.near
  have hdiff : (k : ℝ) / 255 - v = (k - 255 * v) / 255 := by ring
  rw [hdiff, abs_div, abs_of_pos (by norm_num : (0 : ℝ) < 255), div_le_iff₀ (by norm_num)]
  linarith

/-! ## Machine numbers -/

namespace Machine

open Decimal (Binary)
open Float.Model (Format)
open Float.Model.UnpackedFloat

variable {x y : Float}

/-- The highest bit as a factor. -/
theorem signum_unpackSign (b : BitVec Format.binary64.numBits) :
    signum (.ofBitVec (unpackSign b)) = if 9223372036854775808 ≤ b.toNat then -1 else 1 := by
  have hb : b.toNat < 18446744073709551616 := b.isLt
  have hsign := toNat_unpackSign b
  split_ifs with hneg
  · have h1 : unpackSign b = 1#1 := BitVec.eq_of_toNat_eq (hsign.trans (by rw [BitVec.toNat_ofNat]; omega))
    rw [h1]
    rfl
  · have h0 : unpackSign b = 0#1 := BitVec.eq_of_toNat_eq (hsign.trans (by rw [BitVec.toNat_ofNat]; omega))
    rw [h0]
    rfl

/-- A number is read from the three fields of its bits. -/
theorem ofFloat_eq {b : BitVec Format.binary64.numBits} (hb : b = x.toBits.toBitVec) : Binary.ofFloat x =
    if (unpackExponent b).toNat = 2047 then
      if (unpackMantissa b).toNat = 0 then .infinite (decide (9223372036854775808 ≤ b.toNat)) else .nan
    else if (unpackExponent b).toNat = 0 then
      .finite (decide (9223372036854775808 ≤ b.toNat)) (unpackMantissa b).toNat (-1074)
    else .finite (decide (9223372036854775808 ≤ b.toNat)) (4503599627370496 + (unpackMantissa b).toNat)
      (Int.ofNat (unpackExponent b).toNat - 1075) := by
  rw [toNat_unpackExponent, toNat_unpackMantissa, hb]
  rfl

/-- The last exponent is that of infinities and NaN. -/
theorem unpackExponent_ne {b : BitVec Format.binary64.numBits} (h : Canonical (unpack Format.binary64 b)) :
    unpackExponent b ≠ -1#11 := by
  intro hlast
  unfold unpack at h
  rw [if_pos hlast] at h
  by_cases hm : unpackMantissa b = 0#_
  · rw [if_pos hm] at h
    exact h
  · rw [if_neg hm] at h
    exact h

/-- A finite number is read with its sign, mantissa and exponent. -/
theorem exists_ofFloat (h : IsFinite x) : ∃ (negative : Bool) (m : ℕ) (e : ℤ),
    Binary.ofFloat x = .finite negative m e ∧ val x = (if negative then -1 else 1) * (m * 2 ^ e) := by
  obtain ⟨b, hb⟩ : ∃ b : BitVec Format.binary64.numBits, b = x.toBits.toBitVec := ⟨_, rfl⟩
  have hval : val x = value (unpack Format.binary64 b) := by rw [hb]; rfl
  have hlast : unpackExponent b ≠ -1#11 := unpackExponent_ne (by rw [hb]; exact h)
  have hlast' : (unpackExponent b).toNat ≠ 2047 := fun h => hlast (BitVec.eq_of_toNat_eq h)
  have hsign := signum_unpackSign b
  rw [ofFloat_eq hb, if_neg hlast', hval]
  by_cases h0 : unpackExponent b = 0#11
  · have h0' : (unpackExponent b).toNat = 0 := by rw [h0]; rfl
    rw [if_pos h0']
    refine ⟨_, _, _, rfl, ?_⟩
    by_cases hm : unpackMantissa b = 0#52
    · rw [unpack_zero rfl h0 hm, value_zero, hm]
      simp
    · have hpos : 0 < (unpackMantissa b).toNat := Nat.pos_of_ne_zero fun h => hm (BitVec.eq_of_toNat_eq h)
      rw [unpack_subnormal rfl h0 rfl hpos, value_finite, hsign]
      simp
  · have h0' : (unpackExponent b).toNat ≠ 0 := fun h => h0 (BitVec.eq_of_toNat_eq h)
    have hi := toNat_implicit (unpackMantissa b)
    rw [if_neg h0', unpack_normal rfl rfl rfl hlast h0 (by omega)]
    refine ⟨_, _, _, rfl, ?_⟩
    rw [value_finite, hsign, hi]
    simp

/-- **Whole parts of machine numbers are exact.** -/
theorem floor_eq (h : IsFinite x) : (Binary.ofFloat x).floor = ⌊val x⌋ := by
  obtain ⟨negative, m, e, hx, hval⟩ := exists_ofFloat h
  obtain ⟨num, den, hquotient, hfraction⟩ : ∃ num den : ℕ, (Binary.finite negative m e).quotient = (num, den) ∧
      (num : ℚ) / den = m * 2 ^ e := by
    by_cases he : 0 ≤ e
    · refine ⟨_, _, if_pos he, ?_⟩
      obtain ⟨d, rfl⟩ := Int.eq_ofNat_of_zero_le he
      simp
    · refine ⟨_, _, if_neg he, ?_⟩
      obtain ⟨d, rfl⟩ := Int.exists_eq_neg_ofNat (not_le.mp he).le
      simp [div_eq_mul_inv]
  have hfloor : (Binary.ofFloat x).floor = (if negative then -(num : ℤ) else num) / (den : ℤ) := by
    rw [hx, Binary.floor, hquotient]
  rw [hfloor, hval, ← Rat.floor_intCast_div_natCast, ← hfraction]
  cases negative <;> simp [neg_div]

/-- What is left over beside a whole part from zero on is a machine number. -/
theorem representable_fract {v : ℚ} (h : Representable v) (h0 : 0 ≤ v) : Representable (Int.fract v) := by
  obtain ⟨k, j, hk, hj, hv⟩ := h
  rcases le_or_gt 0 j with hwhole | hpart
  · -- an integer
    obtain ⟨d, rfl⟩ := Int.eq_ofNat_of_zero_le hwhole
    have hint : v = (k * 2 ^ d : ℤ) := by rw [hv]; push_cast; rfl
    rw [hint, Int.fract_intCast]
    exact representable_zero
  · have hpos : (0 : ℚ) < 2 ^ j := by positivity
    obtain ⟨d, rfl⟩ := Int.exists_eq_neg_ofNat hpart.le
    have hscale : (2 : ℚ) ^ d * 2 ^ (-(d : ℤ)) = 1 := by
      rw [zpow_neg, zpow_natCast, mul_inv_cancel₀ (by positivity)]
    have hfract : Int.fract v = (k - ⌊v⌋ * 2 ^ d : ℤ) * 2 ^ (-(d : ℤ)) := by
      push_cast
      rw [sub_mul, mul_assoc, hscale, mul_one, ← hv, Int.self_sub_floor]
    refine ⟨_, _, ?_, hj, hfract⟩
    have hge : 0 ≤ k - ⌊v⌋ * 2 ^ d := by
      have hnonneg := Int.fract_nonneg v
      rw [hfract] at hnonneg
      exact_mod_cast (mul_nonneg_iff_of_pos_right hpos).mp hnonneg
    have hle : 0 ≤ ⌊v⌋ * 2 ^ d := mul_nonneg (Int.floor_nonneg.mpr h0) (by positivity)
    rw [abs_of_nonneg hge]
    exact (sub_le_self k hle).trans ((le_abs_self k).trans hk)

/-- The whole part of what is moved by no bound. -/
theorem exists_floor {v : ℚ} (h0 : 0 ≤ v) (h255 : v ≤ 255) : ∃ n : ℕ, ⌊v⌋ = n ∧ n ≤ 255 := by
  obtain ⟨n, hn⟩ := Int.eq_ofNat_of_zero_le (Int.floor_nonneg.mpr h0)
  have hle : ⌊v⌋ ≤ 255 := Int.floor_le_iff.mpr (by push_cast; linarith)
  exact ⟨n, hn, by omega⟩

/-- **Below the greatest byte `roundHalfEven` finds the nearest integer.** -/
theorem roundHalfEven_eq (h : IsFinite x) (h0 : 0 ≤ val x) (h255 : val x ≤ 255) : roundHalfEven x = halfEven (val x) := by
  obtain ⟨n, hn, hn255⟩ := exists_floor h0 h255
  have hnear : Near (Float.ofInt n) n := near_ofInt (by omega)
  have hval : val (Float.ofInt n) = n := hnear.val_eq (representable_natCast (by omega))
  have hfract : val x - n = Int.fract (val x) := by rw [← Int.self_sub_floor, hn]; rfl
  -- nothing is rounded when the whole part is taken off
  have hsub : Near (x - Float.ofInt n) (Int.fract (val x)) := by
    have hsub := near_sub h hnear.finite (by
      rw [hval, hfract]
      exact within_two (Int.fract_nonneg _) ((Int.fract_lt_one _).le.trans (by norm_num)))
    rwa [hval, hfract] at hsub
  have hrest : val (x - Float.ofInt n) = Int.fract (val x) :=
    hsub.val_eq (representable_fract (representable_of_canonical h) h0)
  have hlt : x - Float.ofInt n < 0.5 ↔ Int.fract (val x) < 1 - Int.fract (val x) := by
    rw [lt_iff hsub.finite between_half.finite, hrest, between_half.val_eq]
    constructor <;> intro h <;> linarith
  have hgt : 0.5 < x - Float.ofInt n ↔ 1 - Int.fract (val x) < Int.fract (val x) := by
    rw [lt_iff between_half.finite hsub.finite, hrest, between_half.val_eq]
    constructor <;> intro h <;> linarith
  have hfloor : Arith.floor x = n := (floor_eq h).trans hn
  unfold roundHalfEven halfEven
  rw [hfloor, hn]
  exact if_congr hlt rfl (if_congr hgt rfl rfl)

theorem representable_top : Representable 255 := ⟨255, 0, by decide, by decide, by norm_num⟩

theorem between_top : Between 255 255 (255.0 : Float) := by exact_mod_cast between_whole 255 rfl (by decide)

/-- **A finite number is brought to its byte.** -/
theorem isByte_nearestByte (h : IsFinite x) : IsByte (nearestByte x) (val x) := by
  have htop : (255.0 : Float) ≤ x ↔ 255 ≤ val x := by rw [le_iff between_top.finite h, between_top.val_eq]
  have hzero : (0.0 : Float) < x ↔ 0 < val x := by rw [lt_iff between_zero.finite h, between_zero.val_eq]
  unfold nearestByte
  split_ifs with h255 h0
  · exact isByte_of_ge (htop.mp h255)
  · have h0' := (hzero.mp h0).le
    have h255' := (not_le.mp fun h => h255 (htop.mpr h)).le
    rw [roundHalfEven_eq h h0' h255']
    exact (isHalfEven_halfEven _).isByte h0' h255'
  · exact isByte_of_nonpos (not_lt.mp fun h => h0 (hzero.mpr h))

theorem nearestByte_infinity (h : x.toModel.unpack = .infinity .positive) : nearestByte x = 255 := by
  have htop : (255.0 : Float) ≤ x := by
    rw [le_iff_parts, h]
    decide
  exact if_pos htop

theorem nearestByte_neg_infinity (h : x.toModel.unpack = .infinity .negative) : nearestByte x = 0 := by
  have htop : ¬ (255.0 : Float) ≤ x := by
    rw [le_iff_parts, h]
    decide
  have hzero : ¬ (0.0 : Float) < x := by
    rw [lt_iff_parts, h]
    decide
  unfold nearestByte
  rw [if_neg htop, if_neg hzero]

/-- What lies between the least byte and the greatest one is finite. -/
theorem finite_of_between (h0 : 0.0 < x) (h255 : ¬ 255.0 ≤ x) : IsFinite x := by
  rw [lt_iff_parts] at h0
  rw [le_iff_parts] at h255
  rcases finite_or x with ⟨h, -⟩ | ⟨s, hs⟩ | hnan
  · exact h
  · rw [hs] at h0 h255
    cases s with
    | positive => exact absurd rfl h255
    | negative => cases h0
  · rw [hnan] at h0
    cases h0

/-- A number out of all bounds is packed as an infinity with its sign. -/
theorem unpack_pack_of_large {s : Sign} {m : ℕ} {e : ℤ} {hm : 0 < m} (hu : Canonical (.finite s m e hm))
    (hb : 2 ^ 1024 ≤ |value (.finite s m e hm)|) :
    unpack Format.binary64 (pack Format.binary64 (.finite s m e hm)) = .infinity s := by
  have he : 972 ≤ e := by
    by_contra hsmall
    exact absurd (abs_value_lt hu.1 (by omega)) (not_lt.mpr hb)
  have hpack : pack Format.binary64 (.finite s m e hm) = pack Format.binary64 (.infinity s) := by
    unfold pack
    have hbig : 2 ^ Format.binary64.exponentBits ≤
        (e + Format.binary64.exponentBias + Format.binary64.mantissaBitsWithoutImplicit).toNat + 1 := by
      show 2048 ≤ (e + (1023 : ℕ) + (52 : ℕ)).toNat + 1
      omega
    exact if_pos hbig
  rw [hpack]
  exact unpack_infinity s

/-- **A product that is not finite** is that of numbers whose exact product is as far beyond all bytes. -/
theorem isByte_product_of_infinite (hx : IsFinite x) (hy : IsFinite y) (h : ¬ IsFinite (x * y)) :
    IsByte (nearestByte (x * y)) (val x * val y) := by
  have hround := roundsTo_mul hx hy
  have hmul : (x * y).toModel.unpack =
      unpack Format.binary64 (pack Format.binary64 (mul Format.binary64 x.toModel.unpack y.toModel.unpack)) := rfl
  generalize mul Format.binary64 x.toModel.unpack y.toModel.unpack = u at hround hmul
  have hlarge : 2 ^ 1024 ≤ |value u| := by
    by_contra hsmall
    have hback := unpack_pack hround.canonical (not_le.mp hsmall)
    exact h (by rw [IsFinite, hmul, hback]; exact hround.canonical)
  have hbound : (255 : ℚ) < 2 ^ 1024 := by
    calc (255 : ℚ) < 2 ^ 8 := by norm_num
      _ ≤ 2 ^ 1024 := pow_le_pow_right₀ one_le_two (by decide)
  obtain ⟨s, rfl⟩ | ⟨s, m, e, hm, rfl⟩ := hround.canonical.zero_or_finite
  · rw [value_zero, abs_zero] at hlarge
    exact absurd (hbound.trans_le hlarge) (by norm_num)
  · rw [unpack_pack_of_large hround.canonical hlarge] at hmul
    cases s with
    | positive =>
      rw [nearestByte_infinity hmul]
      refine isByte_of_ge (not_lt.mp fun hlt => ?_)
      have hle := hround.nearest.le_of_le representable_top hlt.le
      rw [abs_of_pos (value_pos hm)] at hlarge
      exact absurd (hbound.trans_le hlarge) (not_lt.mpr hle)
    | negative =>
      rw [nearestByte_neg_infinity hmul]
      refine isByte_of_nonpos (not_lt.mp fun hlt => ?_)
      have hge := hround.nearest.ge_of_ge representable_zero hlt.le
      exact absurd (value_lt_zero hm) (not_lt.mpr hge)

/-- The byte of a part of a colour: that of `255` times the part, which is the product of machine numbers where that is
finite. -/
structure IsPartByte (k : ℕ) (v : Float) : Prop where
  finite : IsFinite (v * 255.0) → IsByte k (val (v * 255.0))
  infinite : ¬ IsFinite (v * 255.0) → IsByte k (255 * val v)

theorem IsPartByte.le {k : ℕ} {v : Float} (h : IsPartByte k v) : k ≤ 255 := by
  by_cases hfinite : IsFinite (v * 255.0)
  · exact (h.finite hfinite).le
  · exact (h.infinite hfinite).le

theorem isPartByte_nearestByte (h : IsFinite x) : IsPartByte (nearestByte (x * 255.0)) x := by
  refine ⟨isByte_nearestByte, fun hinfinite => ?_⟩
  have hbyte := isByte_product_of_infinite h between_top.finite hinfinite
  rwa [between_top.val_eq, mul_comm] at hbyte

end Machine

/-! ## Quantities -/

namespace Quantity

open Machine

theorem roundHalfEven_machine {x : Float} (h : IsFinite x) (h0 : 0 ≤ val x) (h255 : val x ≤ 255) :
    roundHalfEven (machine x) = roundHalfEven x := by
  obtain ⟨n, hn, hn255⟩ := exists_floor h0 h255
  have hnearest : nearest? n = some (Float.ofInt n) := by
    rw [nearest?, isInf_of_finite (near_ofInt (by omega)).finite]
    rfl
  have hsub : machine x - Arith.ofInt n = machine (x - Float.ofInt n) := by
    show ofOption ((nearest? n).map fun y => x - y) = _
    rw [hnearest]
    rfl
  have hfloor : Arith.floor x = n := (floor_eq h).trans hn
  have hfloor' : Arith.floor (machine x) = n := hfloor
  have hlt : machine x - Arith.ofInt n < 0.5 ↔ x - Float.ofInt n < 0.5 := by
    rw [hsub]
    exact decide_eq_true_iff
  have hgt : 0.5 < machine x - Arith.ofInt n ↔ 0.5 < x - Float.ofInt n := by
    rw [hsub]
    exact decide_eq_true_iff
  unfold roundHalfEven
  rw [hfloor, hfloor']
  exact if_congr hlt rfl (if_congr hgt rfl rfl)

/-- A machine number has one byte, by itself and as a quantity. -/
theorem nearestByte_machine (x : Float) : nearestByte (machine x) = nearestByte x := by
  have htop : (255.0 : Quantity) ≤ machine x ↔ (255.0 : Float) ≤ x := decide_eq_true_iff
  have hzero : (0.0 : Quantity) < machine x ↔ (0.0 : Float) < x := decide_eq_true_iff
  have hround : ¬ (255.0 : Float) ≤ x → (0.0 : Float) < x → roundHalfEven (machine x) = roundHalfEven x := by
    intro h255 h0
    have hfinite : IsFinite x := finite_of_between h0 h255
    rw [le_iff between_top.finite hfinite, between_top.val_eq, not_le] at h255
    rw [lt_iff between_zero.finite hfinite, between_zero.val_eq] at h0
    exact roundHalfEven_machine hfinite h0.le h255.le
  unfold nearestByte
  refine ite_congr (propext htop) (fun _ => rfl) fun h255 => ite_congr (propext hzero) (fun h0 => ?_) fun _ => rfl
  rw [hround h255 h0]

/-- Among machine numbers a part of a colour is multiplied as one. -/
theorem channelByte_machine (x : Float) : channelByte .machine (machine x) = nearestByte (x * 255.0) := by
  have hnear : Near (Float.ofInt 255) 255 := by exact_mod_cast near_ofInt (n := 255) (by decide)
  have hval : val (Float.ofInt 255) = 255 := hnear.val_eq representable_top
  have heq : Float.ofInt 255 = 255.0 :=
    eq_of_val hnear.finite between_top.finite (hval.trans between_top.val_eq.symm) (by rw [between_top.val_eq]; norm_num)
  have hnearest : nearest? 255 = some 255.0 := by
    rw [nearest?, heq, isInf_of_finite between_top.finite]
    rfl
  have hmul : BlockForm.multiple .machine 255 (machine x) = ofOption ((nearest? 255).map fun y => x * y) := rfl
  rw [channelByte, hmul, hnearest, Option.map_some]
  exact nearestByte_machine _

end Quantity

/-! ## Exact numbers -/

namespace Exact

theorem roundHalfEven_eq (x : ℝ) : roundHalfEven x = halfEven x := by
  have hhalf : (0.5 : ℝ) = 1 / 2 := by norm_num
  have hlt : x - ⌊x⌋ < 0.5 ↔ Int.fract x < 1 - Int.fract x := by
    rw [hhalf, Int.self_sub_floor]
    constructor <;> intro h <;> linarith
  have hgt : 0.5 < x - ⌊x⌋ ↔ 1 - Int.fract x < Int.fract x := by
    rw [hhalf, Int.self_sub_floor]
    constructor <;> intro h <;> linarith
  exact if_congr hlt rfl (if_congr hgt rfl rfl)

/-- **An exact number is brought to its byte.** -/
theorem isByte_nearestByte (x : ℝ) : IsByte (nearestByte x) x := by
  have htop : (255.0 : ℝ) = 255 := by norm_num
  unfold nearestByte
  rw [htop, zero_eq, roundHalfEven_eq]
  split_ifs with h255 h0
  · exact isByte_of_ge h255
  · exact (isHalfEven_halfEven x).isByte h0.le (not_le.mp h255).le
  · exact isByte_of_nonpos (not_lt.mp h0)

theorem isByte_channelByte (v : ℝ) : IsByte (channelByte .machine v) (255 * v) := by
  have hmul : channelByte .machine v = nearestByte (255 * v) := by
    have hproduct : BlockForm.multiple .machine 255 v = v * (255 : ℤ) := rfl
    rw [channelByte, hproduct, Int.cast_ofNat, mul_comm]
  rw [hmul]
  exact isByte_nearestByte _

end Exact

end TurtlePlant
