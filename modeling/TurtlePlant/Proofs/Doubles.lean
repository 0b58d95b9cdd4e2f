import TurtlePlant.Proofs.Machine
import TurtlePlant.Proofs.Operations

/-!
# Machine numbers and their values

The value of a finite machine number is a rational number (`val`), and finite numbers compare by their values (`lt_iff`,
`beq_iff_val`). What is rounded comes back from its bits unless it is out of all bounds (`unpack_pack`), so sums, differences,
products and quotients within bounds are the finite numbers nearest to the exact results (`near_add`, `near_sub`, `near_mul`,
`near_div`). The difference of numbers that are not equal is never rounded to zero (`val_sub_ne_zero`,
`val_sub_eq_zero_iff`).
-/

namespace TurtlePlant

namespace Machine

open Float.Model (Format)
open Float.Model.UnpackedFloat

/-! ## Bits -/

/-- The sign is the highest bit. -/
theorem unpackSign_packComponents (s : Sign) (e : BitVec 11) (m : BitVec 52) :
    Sign.ofBitVec (unpackSign (packComponents Format.binary64 s e m)) = s := by
  have hbit : (unpackSign (packComponents Format.binary64 s e m)).toNat = s.toBitVec.toNat := by
    have he := e.isLt
    have hm := m.isLt
    have hs := s.toBitVec.isLt
    show ((packComponents Format.binary64 s e m).extractLsb 63 63).toNat = _
    rw [BitVec.extractLsb_toNat, packComponents, BitVec.toNat_append, BitVec.toNat_append,
      ← Nat.shiftLeft_add_eq_or_of_lt e.isLt, ← Nat.shiftLeft_add_eq_or_of_lt m.isLt, Nat.shiftLeft_eq, Nat.shiftLeft_eq,
      Nat.shiftRight_eq_div_pow]
    omega
  rw [BitVec.eq_of_toNat_eq hbit]
  cases s <;> rfl

/-! The parts of bits whose sign, exponent and mantissa are known. -/

section Parts

variable {b : BitVec Format.binary64.numBits} {s : Sign} {e : BitVec 11} {m : BitVec 52}

theorem unpack_zero (hs : Sign.ofBitVec (unpackSign b) = s) (he : unpackExponent b = 0#11)
    (hm : unpackMantissa b = 0#52) : unpack Format.binary64 b = .zero s := by
  subst hs
  unfold unpack
  rw [if_neg (by rw [he]; decide), if_pos he, dif_pos hm]

theorem unpack_subnormal (hs : Sign.ofBitVec (unpackSign b) = s) (he : unpackExponent b = 0#11)
    (hm : unpackMantissa b = m) (hpos : 0 < m.toNat) : unpack Format.binary64 b = .finite s m.toNat (-1074) hpos := by
  subst hs hm
  have h0 : unpackMantissa b ≠ 0#52 := fun h => absurd hpos (by rw [h]; exact lt_irrefl 0)
  unfold unpack
  rw [if_neg (by rw [he]; decide), if_pos he, dif_neg h0, he]
  rfl

theorem unpack_normal (hs : Sign.ofBitVec (unpackSign b) = s) (he : unpackExponent b = e)
    (hm : unpackMantissa b = m) (h1 : e ≠ -1#11) (h0 : e ≠ 0#11) (hpos : 0 < (1#1 ++ m).toNat) :
    unpack Format.binary64 b = .finite s (1#1 ++ m).toNat (e.toNat - 1075) hpos := by
  subst hs he hm
  unfold unpack
  rw [if_neg h1, if_neg h0]
  rfl

end Parts

theorem abs_value_finite (s : Sign) (m : ℕ) (e : ℤ) (hm : 0 < m) : |value (.finite s m e hm)| = m * 2 ^ e := by
  have hnonneg : (0 : ℚ) ≤ m * 2 ^ e := by positivity
  cases s with
  | positive =>
    show |1 * ((m : ℚ) * 2 ^ e)| = _
    rw [one_mul, abs_of_nonneg hnonneg]
  | negative =>
    show |-1 * ((m : ℚ) * 2 ^ e)| = _
    rw [neg_one_mul, abs_neg, abs_of_nonneg hnonneg]

/-- A mantissa of 53 bits makes a number within bounds before the exponents that there are. -/
theorem abs_value_lt {s : Sign} {m : ℕ} {e : ℤ} {hm : 0 < m} (h : m < 2 ^ 53) (he : e ≤ 971) :
    |value (.finite s m e hm)| < 2 ^ 1024 := by
  have hm' : (m : ℚ) < 2 ^ 53 := by exact_mod_cast h
  rw [abs_value_finite]
  calc (m : ℚ) * 2 ^ e < 2 ^ 53 * 2 ^ e := mul_lt_mul_of_pos_right hm' (by positivity)
    _ ≤ 2 ^ 53 * 2 ^ (971 : ℤ) := by
      gcongr
      norm_num
    _ = 2 ^ 1024 := by rw [show (971 : ℤ) = (971 : ℕ) from rfl, zpow_natCast, ← pow_add]

/-- With all 53 bits in use no higher exponent does. -/
theorem le_of_abs_value_lt {s : Sign} {m : ℕ} {e : ℤ} {hm : 0 < m} (h : 2 ^ 52 ≤ m)
    (hb : |value (.finite s m e hm)| < 2 ^ 1024) : e ≤ 971 := by
  by_contra hbig
  have hle : (2 : ℚ) ^ 1024 ≤ |value (.finite s m e hm)| := by
    calc (2 : ℚ) ^ 1024 = 2 ^ 52 * (2 : ℚ) ^ (972 : ℤ) := by
          rw [show (972 : ℤ) = (972 : ℕ) from rfl, zpow_natCast, ← pow_add]
      _ ≤ (m : ℚ) * 2 ^ e := by
        gcongr
        · exact_mod_cast h
        · norm_num
        · omega
      _ = |value (.finite s m e hm)| := (abs_value_finite s m e hm).symm
  exact absurd hb (not_lt.mpr hle)

/-- **Parts without a wasted bit come back from the bits they are packed into**, unless they are those of a number out of
all bounds. -/
theorem unpack_pack {u : Float.Model.UnpackedFloat} (hu : Canonical u) (hb : |value u| < 2 ^ 1024) :
    unpack Format.binary64 (pack Format.binary64 u) = u := by
  obtain ⟨s, rfl⟩ | ⟨s, m, e, hm, rfl⟩ := hu.zero_or_finite
  · exact unpack_zero (unpackSign_packComponents s 0 0) unpackExponent_packComponents unpackMantissa_packComponents
  · obtain ⟨hlt, he, hbits⟩ := hu
    by_cases hnormal : 2 ^ 52 ≤ m
    · have hexp := le_of_abs_value_lt hnormal hb
      obtain ⟨b, rfl⟩ : ∃ b : BitVec 52, m = (1#1 ++ b).toNat :=
        ⟨BitVec.ofNat 52 (m - 2 ^ 52), by rw [toNat_implicit, BitVec.toNat_ofNat]; omega⟩
      obtain ⟨n, rfl⟩ : ∃ n : BitVec 11, e = n.toNat - 1075 :=
        ⟨BitVec.ofNat 11 (e + 1075).toNat, by rw [BitVec.toNat_ofNat]; omega⟩
      have hn : n ≠ -1#11 := by
        rintro rfl
        exact absurd hexp (by decide)
      have hn0 : n ≠ 0#11 := by
        rintro rfl
        exact absurd he (by decide)
      rw [pack_normal s hm hn]
      exact unpack_normal (unpackSign_packComponents s n b) unpackExponent_packComponents
        unpackMantissa_packComponents hn hn0 hm
    · obtain rfl : e = -1074 := hbits.resolve_left hnormal
      obtain ⟨b, rfl⟩ : ∃ b : BitVec 52, m = b.toNat :=
        ⟨BitVec.ofNat 52 m, by rw [BitVec.toNat_ofNat]; omega⟩
      rw [pack_subnormal s hm rfl]
      exact unpack_subnormal (unpackSign_packComponents s 0 b) unpackExponent_packComponents
        unpackMantissa_packComponents hm

/-- The parts of bits have no bit wasted and make a number within bounds, unless they are an infinity or no number. -/
theorem canonical_unpack (b : BitVec Format.binary64.numBits) :
    (Canonical (unpack Format.binary64 b) ∧ |value (unpack Format.binary64 b)| < 2 ^ 1024) ∨
      (∃ s, unpack Format.binary64 b = .infinity s) ∨ unpack Format.binary64 b = .notANumber := by
  by_cases h1 : unpackExponent b = -1#11
  · unfold unpack
    rw [if_pos h1]
    by_cases hm : unpackMantissa b = 0#_
    · rw [if_pos hm]
      exact Or.inr (Or.inl ⟨_, rfl⟩)
    · rw [if_neg hm]
      exact Or.inr (Or.inr rfl)
  · left
    by_cases h0 : unpackExponent b = 0#11
    · by_cases hm : unpackMantissa b = 0#52
      · rw [unpack_zero rfl h0 hm]
        refine ⟨trivial, ?_⟩
        show |(0 : ℚ)| < 2 ^ 1024
        rw [abs_zero]
        positivity
      · have hpos : 0 < (unpackMantissa b).toNat := Nat.pos_of_ne_zero fun h => hm (BitVec.eq_of_toNat_eq h)
        have hlt : (unpackMantissa b).toNat < 2 ^ 53 := (unpackMantissa b).isLt.trans (by decide)
        rw [unpack_subnormal rfl h0 rfl hpos]
        exact ⟨⟨hlt, le_rfl, Or.inr rfl⟩, abs_value_lt hlt (by decide)⟩
    · have hexp : 0 < (unpackExponent b).toNat := Nat.pos_of_ne_zero fun h => h0 (BitVec.eq_of_toNat_eq h)
      have hexp' : (unpackExponent b).toNat ≠ 2047 := fun h => h1 (BitVec.eq_of_toNat_eq h)
      have hlt' : (unpackExponent b).toNat < 2048 := (unpackExponent b).isLt
      have hlt : (unpackMantissa b).toNat < 4503599627370496 := (unpackMantissa b).isLt
      have hi := toNat_implicit (unpackMantissa b)
      have hm : (1#1 ++ unpackMantissa b).toNat < 2 ^ 53 := by omega
      rw [unpack_normal rfl rfl rfl h1 h0 (by omega)]
      refine ⟨⟨hm, ?_, Or.inl ?_⟩, abs_value_lt hm ?_⟩
      · show -1074 ≤ ((unpackExponent b).toNat : ℤ) - 1075
        omega
      · show 2 ^ 52 ≤ (1#1 ++ unpackMantissa b).toNat
        omega
      · show ((unpackExponent b).toNat : ℤ) - 1075 ≤ 971
        omega

/-! ## Comparisons -/

/-- Of two mantissas without a wasted bit, the one before the higher exponent makes the larger number. -/
theorem mul_zpow_lt {m m' : ℕ} {e e' : ℤ} (hm : m < 2 ^ 53) (he : -1074 ≤ e) (hm' : 2 ^ 52 ≤ m' ∨ e' = -1074) (h : e < e') :
    (m : ℚ) * 2 ^ e < m' * 2 ^ e' := by
  have hm52 : (2 : ℚ) ^ 52 ≤ m' := by exact_mod_cast hm'.resolve_right (by omega)
  have hm53 : (m : ℚ) < 2 ^ 53 := by exact_mod_cast hm
  calc (m : ℚ) * 2 ^ e < 2 ^ 53 * 2 ^ e := mul_lt_mul_of_pos_right hm53 (by positivity)
    _ = 2 ^ 52 * 2 ^ (e + 1) := by rw [zpow_add_one₀ two_ne_zero]; ring
    _ ≤ m' * 2 ^ e' := by
      gcongr
      · norm_num
      · omega

/-- Positive numbers compare by their exponents first. -/
theorem compare_parts {m m' : ℕ} {e e' : ℤ} (h : m < 2 ^ 53 ∧ -1074 ≤ e ∧ (2 ^ 52 ≤ m ∨ e = -1074))
    (h' : m' < 2 ^ 53 ∧ -1074 ≤ e' ∧ (2 ^ 52 ≤ m' ∨ e' = -1074)) :
    (compare e e').then (compare m m') = compare ((m : ℚ) * 2 ^ e) (m' * 2 ^ e') := by
  rcases lt_trichotomy e e' with hlt | rfl | hlt
  · rw [compare_lt_iff_lt.mpr hlt, compare_lt_iff_lt.mpr (mul_zpow_lt h.1 h.2.1 h'.2.2 hlt)]
    rfl
  · have hpos : (0 : ℚ) < 2 ^ e := by positivity
    rw [compare_eq_iff_eq.mpr rfl]
    show compare m m' = _
    rcases lt_trichotomy m m' with hm | rfl | hm
    · rw [compare_lt_iff_lt.mpr hm, compare_lt_iff_lt.mpr (mul_lt_mul_of_pos_right (by exact_mod_cast hm) hpos)]
    · rw [compare_eq_iff_eq.mpr rfl, compare_eq_iff_eq.mpr rfl]
    · rw [compare_gt_iff_gt.mpr hm, compare_gt_iff_gt.mpr (mul_lt_mul_of_pos_right (by exact_mod_cast hm) hpos)]
  · rw [compare_gt_iff_gt.mpr hlt, compare_gt_iff_gt.mpr (mul_zpow_lt h'.1 h'.2.1 h.2.2 hlt)]
    rfl

theorem value_pos {m : ℕ} {e : ℤ} (hm : 0 < m) : 0 < value (.finite .positive m e hm) := by
  show 0 < 1 * ((m : ℚ) * 2 ^ e)
  have hm' : (0 : ℚ) < m := by exact_mod_cast hm
  positivity

theorem value_lt_zero {m : ℕ} {e : ℤ} (hm : 0 < m) : value (.finite .negative m e hm) < 0 := by
  have hpos := value_pos (e := e) hm
  have hneg : value (.finite .negative m e hm) = -value (.finite .positive m e hm) :=
    value_neg (.finite .positive m e hm)
  linarith

/-- **Finite numbers compare by their values.** -/
theorem compare_eq {u v : Float.Model.UnpackedFloat} (hu : Canonical u) (hv : Canonical v) :
    u.compare v = some (compare (value u) (value v)) := by
  obtain ⟨s, rfl⟩ | ⟨s, m, e, hm, rfl⟩ := hu.zero_or_finite <;>
    obtain ⟨s', rfl⟩ | ⟨s', m', e', hm', rfl⟩ := hv.zero_or_finite
  · exact congrArg some (compare_eq_iff_eq.mpr rfl).symm
  · cases s' with
    | positive => exact congrArg some (compare_lt_iff_lt.mpr (value_pos hm')).symm
    | negative => exact congrArg some (compare_gt_iff_gt.mpr (value_lt_zero hm')).symm
  · cases s with
    | positive => exact congrArg some (compare_gt_iff_gt.mpr (value_pos hm)).symm
    | negative => exact congrArg some (compare_lt_iff_lt.mpr (value_lt_zero hm)).symm
  · have hparts := compare_parts hu hv
    cases s with
    | positive =>
      cases s' with
      | positive =>
        show some _ = some (compare (1 * ((m : ℚ) * 2 ^ e)) (1 * ((m' : ℚ) * 2 ^ e')))
        rw [one_mul, one_mul, ← hparts]
      | negative => exact congrArg some (compare_gt_iff_gt.mpr ((value_lt_zero hm').trans (value_pos hm))).symm
    | negative =>
      cases s' with
      | positive => exact congrArg some (compare_lt_iff_lt.mpr ((value_lt_zero hm).trans (value_pos hm'))).symm
      | negative =>
        show some (Ordering.swap _) = some (compare (-1 * ((m : ℚ) * 2 ^ e)) (-1 * ((m' : ℚ) * 2 ^ e')))
        rw [hparts, neg_one_mul, neg_one_mul]
        rcases lt_trichotomy ((m : ℚ) * 2 ^ e) (m' * 2 ^ e') with h | h | h
        · rw [compare_lt_iff_lt.mpr h, compare_gt_iff_gt.mpr (neg_lt_neg h)]
          rfl
        · rw [compare_eq_iff_eq.mpr h, compare_eq_iff_eq.mpr (congrArg Neg.neg h)]
          rfl
        · rw [compare_gt_iff_gt.mpr h, compare_lt_iff_lt.mpr (neg_lt_neg h)]
          rfl

/-! ## Machine numbers -/

/-- The value of a machine number; zero where there is none. -/
def val (x : Float) : ℚ := value x.toModel.unpack

/-- What is neither an infinity nor no number. -/
def IsFinite (x : Float) : Prop := Canonical x.toModel.unpack

/-- A finite number that none is nearer to `q` than. -/
structure Near (x : Float) (q : ℚ) : Prop where
  finite : IsFinite x
  nearest : Nearest (val x) q

/-- Half the first power of two that is out of all bounds. -/
theorem representable_bound : Representable (2 ^ 1023) := ⟨1, 1023, by norm_num, by norm_num, by norm_num⟩

/-- What is rounded to a number well within bounds is that number. -/
theorem near_ofModel {u : Float.Model.UnpackedFloat} {q : ℚ} (h : RoundsTo u q) (hq : |q| ≤ 2 ^ 1023) :
    Near (.ofModel (.pack u)) q := by
  have hlt : |value u| < 2 ^ 1024 :=
    (h.nearest.abs_le_of_abs_le representable_bound hq).trans_lt
      (pow_lt_pow_right₀ one_lt_two (by decide))
  have hu : (Float.ofModel (.pack u)).toModel.unpack = u := unpack_pack h.canonical hlt
  exact ⟨by rw [IsFinite, hu]; exact h.canonical, by rw [val, hu]; exact h.nearest⟩

variable {x y : Float}

/-- A number is finite and within bounds, an infinity, or none. -/
theorem finite_or (x : Float) :
    (IsFinite x ∧ |val x| < 2 ^ 1024) ∨ (∃ s, x.toModel.unpack = .infinity s) ∨ x.toModel.unpack = .notANumber :=
  canonical_unpack _

theorem isInf_of_finite (h : IsFinite x) : x.isInf = false := by
  show x.toModel.unpack.isInf = false
  obtain ⟨s, hx⟩ | ⟨s, m, e, hm, hx⟩ := Canonical.zero_or_finite h <;> rw [hx] <;> rfl

theorem near_add (hx : IsFinite x) (hy : IsFinite y) (h : |val x + val y| ≤ 2 ^ 1023) : Near (x + y) (val x + val y) :=
  near_ofModel (roundsTo_add hx hy) h

theorem near_sub (hx : IsFinite x) (hy : IsFinite y) (h : |val x - val y| ≤ 2 ^ 1023) : Near (x - y) (val x - val y) :=
  near_ofModel (roundsTo_sub hx hy) h

theorem near_mul (hx : IsFinite x) (hy : IsFinite y) (h : |val x * val y| ≤ 2 ^ 1023) : Near (x * y) (val x * val y) :=
  near_ofModel (roundsTo_mul hx hy) h

theorem near_div (hx : IsFinite x) (hy : IsFinite y) (h0 : val y ≠ 0) (h : |val x / val y| ≤ 2 ^ 1023) :
    Near (x / y) (val x / val y) :=
  near_ofModel (roundsTo_div hx hy h0) h

theorem lt_iff (hx : IsFinite x) (hy : IsFinite y) : x < y ↔ val x < val y := by
  rw [lt_iff_parts, Float.Model.UnpackedFloat.lt, compare_eq hx hy, beq_iff_eq, Option.some_inj, compare_lt_iff_lt]
  rfl

theorem le_iff (hx : IsFinite x) (hy : IsFinite y) : x ≤ y ↔ val x ≤ val y := by
  rw [le_iff_parts, Float.Model.UnpackedFloat.le, compare_eq hx hy]
  show (compare (val x) (val y)).isLE = true ↔ _
  rw [← Ordering.ne_gt_iff_isLE]
  exact compare_le_iff_le

theorem beq_iff_val (hx : IsFinite x) (hy : IsFinite y) : (x == y) = true ↔ val x = val y := by
  have h : (x == y) = (x.toModel.unpack.compare y.toModel.unpack == some .eq) := rfl
  rw [h, compare_eq hx hy, beq_iff_eq, Option.some_inj, compare_eq_iff_eq]
  rfl

/-- Finite numbers of one value are the same, unless both are zeros. -/
theorem eq_of_val (hx : IsFinite x) (hy : IsFinite y) (h : val x = val y) (h0 : val y ≠ 0) : x = y := by
  have hc : x.toModel.unpack.compare y.toModel.unpack = some .eq := by
    rw [compare_eq hx hy]
    exact congrArg some (compare_eq_iff_eq.mpr h)
  rcases eq_of_compare hc with h | ⟨s, s', -, hs'⟩
  · exact eq_of_unpack h
  · exact absurd (by rw [val, hs']; rfl) h0

/-- **The difference of numbers that are not equal is not rounded to zero.** -/
theorem val_sub_ne_zero (hx : IsFinite x) (hy : IsFinite y) (h : |val x - val y| ≤ 2 ^ 1023) (hne : val x ≠ val y) :
    IsFinite (x - y) ∧ val (x - y) ≠ 0 := by
  obtain ⟨m, hm⟩ := exists_mul_least (representable_of_canonical hx)
  obtain ⟨n, hn⟩ := exists_mul_least (representable_of_canonical hy)
  have hsub := near_sub hx hy h
  have hvalue : val x - val y = (m - n : ℤ) * 2 ^ (-1074 : ℤ) := by
    rw [val, val, hm, hn, Int.cast_sub, sub_mul]
  refine ⟨hsub.finite, ?_⟩
  have hnear := hsub.nearest
  rw [hvalue] at hnear
  refine Nearest.ne_zero ?_ le_rfl hnear
  rintro h0
  rw [h0, Int.cast_zero, zero_mul] at hvalue
  exact hne (sub_eq_zero.mp hvalue)

theorem val_sub_eq_zero_iff (hx : IsFinite x) (hy : IsFinite y) (h : |val x - val y| ≤ 2 ^ 1023) :
    val (x - y) = 0 ↔ val x = val y := by
  constructor
  · intro h0
    by_contra hne
    exact (val_sub_ne_zero hx hy h hne).2 h0
  · intro heq
    have hnear := (near_sub hx hy h).nearest
    rw [heq, sub_self] at hnear
    exact hnear.eq_of_representable representable_zero

/-! ## Integers and decimals -/

/-- Numbers of 64 bits are well within bounds. -/
theorem within_bounds {q : ℚ} (h : |q| ≤ 2 ^ 64) : |q| ≤ 2 ^ 1023 :=
  h.trans (pow_le_pow_right₀ one_le_two (by decide))

theorem within_of_nonneg {q : ℚ} (h0 : 0 ≤ q) (h : q ≤ 2 ^ 64) : |q| ≤ 2 ^ 1023 :=
  within_bounds (by rwa [abs_of_nonneg h0])

theorem near_toFloat (n : UInt64) : Near n.toFloat n.toNat := by
  have h := roundsTo_normalize n.toNat 0 .positive
  rw [zpow_zero, mul_one] at h
  refine near_ofModel h ?_
  have hlt : n.toNat < 2 ^ 64 := n.toNat_lt
  exact within_of_nonneg (by positivity) (by exact_mod_cast hlt.le)

/-- What can be represented is found as it is. -/
theorem Near.val_eq {q : ℚ} (h : Near x q) (hq : Representable q) : val x = q := h.nearest.eq_of_representable hq

theorem representable_natCast {n : ℕ} (h : n ≤ 2 ^ 53) : Representable n := by
  have hmul := representable_mul_zpow (j := 0) h (by decide)
  rwa [zpow_zero, mul_one] at hmul

/-- Integers of 53 bits are machine numbers. -/
theorem val_toFloat {n : ℕ} (h : n < 2 ^ 53) : val n.toUInt64.toFloat = n := by
  have hn : n.toUInt64.toNat = n := by
    rw [Nat.toUInt64_eq, UInt64.toNat_ofNat']
    omega
  have hnear := near_toFloat n.toUInt64
  rw [hn] at hnear
  exact hnear.val_eq (representable_natCast h.le)

/-- A decimal with one place is the number nearest to it. -/
theorem near_ofScientific {m : ℕ} (h : m < 2 ^ 53) : Near (OfScientific.ofScientific m true 1) (m / 10) := by
  have hx : (OfScientific.ofScientific m true 1 : Float) = m.toUInt64.toFloat / (10 : UInt64).toFloat := by
    show Float.ofScientific m true 1 = _
    unfold Float.ofScientific
    rw [dif_pos ⟨h, by decide⟩]
    rfl
  have hm := val_toFloat h
  have h10 : val (10 : UInt64).toFloat = 10 := val_toFloat (n := 10) (by decide)
  have hq : |(m : ℚ) / 10| ≤ 2 ^ 1023 := by
    have hm' : (m : ℚ) < 2 ^ 53 := by exact_mod_cast h
    exact within_of_nonneg (by positivity) (by linarith)
  rw [hx]
  have hdiv := near_div (near_toFloat m.toUInt64).finite (near_toFloat 10).finite (by rw [h10]; norm_num)
    (by rw [hm, h10]; exact hq)
  rwa [hm, h10] at hdiv

/-- A natural number of 53 bits is a machine number. -/
theorem near_ofInt {n : ℕ} (h : n < 2 ^ 53) : Near (Float.ofInt n) n := by
  have hx : Float.ofInt n = n.toUInt64.toFloat * (1 : UInt64).toFloat := by
    show Float.ofScientific n false 0 = _
    unfold Float.ofScientific
    rw [dif_pos ⟨h, by decide⟩]
    rfl
  have hn := val_toFloat h
  have h1 : val (1 : UInt64).toFloat = 1 := by exact_mod_cast val_toFloat (n := 1) (by decide)
  have hq : |(n : ℚ) * 1| ≤ 2 ^ 1023 := by
    have hn' : (n : ℚ) < 2 ^ 53 := by exact_mod_cast h
    exact within_of_nonneg (by positivity) (by linarith)
  rw [hx]
  have hmul := near_mul (near_toFloat n.toUInt64).finite (near_toFloat 1).finite (by rw [hn, h1]; exact hq)
  rwa [hn, h1, mul_one] at hmul

end Machine

end TurtlePlant
