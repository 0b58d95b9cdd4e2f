import Mathlib.Algebra.Order.Field.Power
import Mathlib.Data.Rat.Cast.Order
import Mathlib.Tactic.FieldSimp
import Mathlib.Tactic.Linarith
import Mathlib.Tactic.Positivity
import Mathlib.Tactic.Ring

/-!
# Rounding to machine numbers

A finite machine number is a mantissa of 53 bits before an exponent, and what an operation gives is rounded to one
(`roundWithAccuracy`). Here the rounded number is compared with all numbers that there are, as rational numbers:

- `Representable`: the numbers that there are;
- `Nearest v q`: no number is nearer to `q` than `v` is. So `v` does not go past a number that there is
  (`Nearest.le_of_le`, `Nearest.ge_of_ge`), is `q` if there is such a number (`Nearest.eq_of_representable`), is not zero for
  any multiple of the least number (`Nearest.ne_zero`), and keeps the order (`Nearest.le_of_lt`);
- `Places`: what a mantissa and its accuracy say of a number, and `Describes`: what they say while bits are shifted out;
- `round_spec`: a mantissa with enough bits is rounded to the nearest number.
-/

namespace TurtlePlant

namespace Machine

open Float.Model (Format totalExponent)
open Float.Model.UnpackedFloat

/-! ## The nearest numbers -/

/-- A number with 53 bits, of which the last one counts no less than `2 ^ (-1074)`. -/
def Representable (v : ℚ) : Prop := ∃ k j : ℤ, |k| ≤ 2 ^ 53 ∧ -1074 ≤ j ∧ v = k * 2 ^ j

/-- A representable number that no other one is nearer to `q` than. -/
structure Nearest (v q : ℚ) : Prop where
  representable : Representable v
  le : ∀ r, Representable r → |v - q| ≤ |r - q|

theorem representable_zero : Representable 0 := ⟨0, 0, by decide, by decide, by simp⟩

theorem representable_mul_zpow {m : ℕ} {j : ℤ} (hm : m ≤ 2 ^ 53) (hj : -1074 ≤ j) : Representable (m * 2 ^ j) := by
  refine ⟨m, j, ?_, hj, by push_cast; rfl⟩
  rw [abs_of_nonneg (by positivity)]
  exact_mod_cast hm

theorem Representable.neg {v : ℚ} (h : Representable v) : Representable (-v) := by
  obtain ⟨k, j, hk, hj, rfl⟩ := h
  exact ⟨-k, j, by rwa [abs_neg], hj, by push_cast; ring⟩

/-- What can be represented is a multiple of the least number that can be. -/
theorem exists_mul_least {v : ℚ} (h : Representable v) : ∃ n : ℤ, v = n * 2 ^ (-1074 : ℤ) := by
  obtain ⟨k, j, -, hj, rfl⟩ := h
  obtain ⟨d, rfl⟩ := Int.le.dest hj
  refine ⟨k * 2 ^ d, ?_⟩
  rw [zpow_add₀ two_ne_zero, zpow_natCast, mul_left_comm, Int.cast_mul, Int.cast_pow, Int.cast_ofNat]
  exact mul_comm _ _

/-- What is representable is its own nearest number. -/
theorem Representable.nearest {v : ℚ} (h : Representable v) : Nearest v v := by
  refine ⟨h, fun r _ => ?_⟩
  rw [sub_self, abs_zero]
  exact abs_nonneg _

namespace Nearest

variable {v q r : ℚ}

theorem neg (h : Nearest v q) : Nearest (-v) (-q) := by
  refine ⟨h.representable.neg, fun r hr => ?_⟩
  have hle := h.le (-r) hr.neg
  rw [← abs_neg (v - q), ← abs_neg (-r - q)] at hle
  rwa [show -v - -q = -(v - q) by ring, show r - -q = -(-r - q) by ring]

/-- **Rounding does not go past a representable number.** -/
theorem le_of_le (h : Nearest v q) (hr : Representable r) (hq : q ≤ r) : v ≤ r := by
  by_contra hv
  have hle := h.le r hr
  rw [abs_of_nonneg (by linarith), abs_of_nonneg (by linarith)] at hle
  linarith

theorem ge_of_ge (h : Nearest v q) (hr : Representable r) (hq : r ≤ q) : r ≤ v := by
  have hneg := h.neg.le_of_le hr.neg (neg_le_neg hq)
  linarith

theorem abs_le_of_abs_le (h : Nearest v q) (hr : Representable r) (hq : |q| ≤ r) : |v| ≤ r := by
  obtain ⟨hlow, hhigh⟩ := abs_le.mp hq
  exact abs_le.mpr ⟨h.ge_of_ge hr.neg hlow, h.le_of_le hr hhigh⟩

theorem eq_of_representable (h : Nearest v q) (hq : Representable q) : v = q :=
  le_antisymm (h.le_of_le hq le_rfl) (h.ge_of_ge hq le_rfl)

/-- Rounding keeps the order. -/
theorem le_of_lt {v' q' : ℚ} (h : Nearest v q) (h' : Nearest v' q') (hq : q < q') : v ≤ v' := by
  by_contra hv
  have hsq := sq_le_sq.mpr (h.le v' h'.representable)
  have hsq' := sq_le_sq.mpr (h'.le v h.representable)
  -- the middle between both would be below one of the numbers rounded and above the other
  have hmiddle : v + v' ≤ 2 * q := by nlinarith
  have hmiddle' : 2 * q' ≤ v + v' := by nlinarith
  linarith

/-- Above `2 ^ 53` only every other integer can be represented, so what is added to it in small parts is lost. -/
theorem le_of_le_add_half (h : Nearest v q) (hq : q ≤ 2 ^ 53 + 1 / 2) : v ≤ 2 ^ 53 := by
  by_contra hv
  obtain ⟨k, j, hk, hj, rfl⟩ := h.representable
  have hk' : (k : ℚ) ≤ 2 ^ 53 := by exact_mod_cast (le_abs_self k).trans hk
  have hbig : 0 < j := by
    by_contra hj0
    have hpow : (2 : ℚ) ^ j ≤ 1 := zpow_le_one_of_nonpos₀ one_le_two (not_lt.mp hj0)
    have hpos : (0 : ℚ) < 2 ^ j := by positivity
    nlinarith
  obtain ⟨d, rfl⟩ := Int.eq_succ_of_zero_lt hbig
  have hint : (k : ℚ) * 2 ^ ((d : ℤ) + 1) = (2 * (k * 2 ^ d) : ℤ) := by
    rw [zpow_add_one₀ two_ne_zero, zpow_natCast]
    push_cast
    ring
  have hnear := h.le (2 ^ 53) ⟨2 ^ 53, 0, by norm_num, by norm_num, by norm_num⟩
  rw [hint] at hv hnear
  have heven : (2 ^ 53 + 2 : ℤ) ≤ 2 * (k * 2 ^ d) := by
    have hlt : (2 ^ 53 : ℤ) < 2 * (k * 2 ^ d) := by exact_mod_cast not_le.mp hv
    omega
  have heven' : (2 : ℚ) ^ 53 + 2 ≤ (2 * (k * 2 ^ d) : ℤ) := by exact_mod_cast heven
  rw [abs_of_nonneg (by linarith)] at hnear
  rcases le_abs.mp hnear with h | h <;> linarith

end Nearest

/-- A multiple of a power of two that there is, if it is not zero, is not rounded to zero. -/
theorem Nearest.ne_zero {v : ℚ} {n j : ℤ} (hn : n ≠ 0) (hj : -1074 ≤ j) (h : Nearest v (n * 2 ^ j)) : v ≠ 0 := by
  have hpos : (0 : ℚ) < 2 ^ j := by positivity
  rcases lt_or_gt_of_ne hn with hneg | hnonneg
  · have hle : (n : ℚ) * 2 ^ j ≤ -1 * 2 ^ j := by
      have hcast : (n : ℚ) ≤ -1 := by exact_mod_cast Int.le_sub_one_of_lt hneg
      exact mul_le_mul_of_nonneg_right hcast hpos.le
    have hr : Representable (-1 * 2 ^ j) := ⟨-1, j, by norm_num, hj, by push_cast; ring⟩
    have hv := h.le_of_le hr hle
    linarith
  · have hle : 1 * (2 : ℚ) ^ j ≤ n * 2 ^ j := by
      have hcast : (1 : ℚ) ≤ n := by exact_mod_cast hnonneg
      exact mul_le_mul_of_nonneg_right hcast hpos.le
    have hr : Representable (1 * 2 ^ j) := ⟨1, j, by norm_num, hj, by push_cast; ring⟩
    have hv := h.ge_of_ge hr hle
    linarith

/-! ## Mantissas -/

/-- What a mantissa and its accuracy say of a number: the mantissa is it, or the next lower integer with the side of the half
above it on which it is. -/
def Places (m : ℕ) : Accuracy → ℚ → Prop
  | .exact, x => x = m
  | .inexact .lt, x => m < x ∧ x < m + 1 / 2
  | .inexact .eq, x => x = m + 1 / 2
  | .inexact .gt, x => m + 1 / 2 < x ∧ x < m + 1

theorem Places.le {m : ℕ} {acc : Accuracy} {x : ℚ} (h : Places m acc x) : (m : ℚ) ≤ x := by
  rcases acc with _ | _ | _ | _ <;> simp only [Places] at h <;> linarith

/-- **The rounded mantissa is no more than a half away.** -/
theorem Places.abs_round_sub_le {m : ℕ} {acc : Accuracy} {x : ℚ} (h : Places m acc x) :
    |(acc.roundToNearestEven m : ℚ) - x| ≤ 1 / 2 := by
  rw [abs_le]
  match acc, h with
  | .exact, h =>
    rw [show x = m from h]
    simp only [Accuracy.roundToNearestEven]
    constructor <;> linarith
  | .inexact .lt, ⟨hlow, hhigh⟩ =>
    simp only [Accuracy.roundToNearestEven]
    constructor <;> linarith
  | .inexact .eq, h =>
    -- half-way, the even neighbour is taken
    have hx : x = m + 1 / 2 := h
    have heven : ((m % 2 : ℕ) : ℚ) = 0 ∨ ((m % 2 : ℕ) : ℚ) = 1 := by
      rcases Nat.mod_two_eq_zero_or_one m with h | h <;> rw [h] <;> simp
    simp only [Accuracy.roundToNearestEven, Nat.cast_add]
    rcases heven with h | h <;> rw [h, hx] <;> constructor <;> linarith
  | .inexact .gt, ⟨hlow, hhigh⟩ =>
    simp only [Accuracy.roundToNearestEven, Nat.cast_add, Nat.cast_one]
    constructor <;> linarith

/-- **So no integer is nearer.** -/
theorem Places.abs_round_sub_le_abs {m : ℕ} {acc : Accuracy} {x : ℚ} (h : Places m acc x) (k : ℤ) :
    |(acc.roundToNearestEven m : ℚ) - x| ≤ |k - x| := by
  have hhalf := h.abs_round_sub_le
  by_cases hk : k = acc.roundToNearestEven m
  · rw [hk]
    simp
  · have hone : (1 : ℚ) ≤ |(k : ℚ) - acc.roundToNearestEven m| := by
      exact_mod_cast Int.one_le_abs (sub_ne_zero.mpr hk)
    have htri := abs_sub_le (k : ℚ) x (acc.roundToNearestEven m)
    rw [abs_sub_comm x] at htri
    linarith

/-! ## Shifting -/

/-- What a mantissa with its two bits says of a number. -/
def Describes (em : ExtendedMantissa) (x : ℚ) : Prop := Places em.mantissa em.accuracy x

theorem describes_ofMantissaAndAccuracy {m : ℕ} {acc : Accuracy} {x : ℚ} (h : Places m acc x) :
    Describes (.ofMantissaAndAccuracy m acc) x := by
  rcases acc with _ | _ | _ | _ <;> exact h

/-- A shift by one place halves the number. -/
theorem Describes.shiftRightOne {em : ExtendedMantissa} {x : ℚ} (h : Describes em x) :
    Describes em.shiftRightOne (x / 2) := by
  obtain ⟨m, roundBit, stickyBit⟩ := em
  have hm : (m : ℚ) = 2 * (m / 2 : ℕ) + (m % 2 : ℕ) := by exact_mod_cast (Nat.div_add_mod m 2).symm
  unfold Describes at h ⊢
  -- the last bit of the mantissa is the new bit for the half, and the two old bits are what is left beside it
  rcases Nat.mod_two_eq_zero_or_one m with hlast | hlast <;> rw [hlast] at hm <;>
    cases roundBit <;> cases stickyBit <;>
    simp only [ExtendedMantissa.accuracy, ExtendedMantissa.shiftRightOne, Places, hlast, Nat.cast_zero, Nat.cast_one,
      Bool.or_self, Bool.or_true, Bool.true_or, Nat.reduceBEq, Bool.not_false, Bool.not_true, bne] at h hm ⊢ <;>
    first | linarith | (constructor <;> linarith)

theorem Describes.shiftRight {em : ExtendedMantissa} {x : ℚ} (h : Describes em x) (n : ℕ) :
    Describes (em >>> n) (x / 2 ^ n) := by
  induction n with
  | zero =>
    rw [pow_zero, div_one]
    exact h
  | succ n ih =>
    rw [pow_succ, ← div_div]
    exact ih.shiftRightOne

theorem mantissa_shiftRight (em : ExtendedMantissa) (n : ℕ) : (em >>> n).mantissa = em.mantissa / 2 ^ n := by
  induction n with
  | zero => exact (Nat.div_one _).symm
  | succ n ih =>
    show (em >>> n).mantissa / 2 = _
    rw [ih, Nat.div_div_eq_div_mul, pow_succ]

theorem mantissa_ofMantissaAndAccuracy (m : ℕ) (acc : Accuracy) :
    (ExtendedMantissa.ofMantissaAndAccuracy m acc).mantissa = m := by
  rcases acc with _ | _ | _ | _ <;> rfl

/-! ## Rounded numbers -/

/-- A sign as a factor. -/
def signum : Sign → ℚ
  | .positive => 1
  | .negative => -1

/-- A number and its negative are alike as far as rounding goes. -/
theorem Representable.signum_mul {q : ℚ} (h : Representable q) (s : Sign) : Representable (signum s * q) := by
  cases s with
  | positive => simpa only [signum, one_mul] using h
  | negative => simpa only [signum, neg_one_mul] using h.neg

theorem Nearest.signum_mul {x q : ℚ} (h : Nearest x q) (s : Sign) : Nearest (signum s * x) (signum s * q) := by
  cases s with
  | positive => simpa only [signum, one_mul] using h
  | negative => simpa only [signum, neg_one_mul] using h.neg

/-- The value of a number by its parts; zero for what has none. -/
def value : Float.Model.UnpackedFloat → ℚ
  | .finite s m e _ => signum s * (m * 2 ^ e)
  | _ => 0

/-- The parts of a finite number as they are when no bit is wasted: 53 bits, or fewer with the last exponent. -/
def Canonical : Float.Model.UnpackedFloat → Prop
  | .finite _ m e _ => m < 2 ^ 53 ∧ -1074 ≤ e ∧ (2 ^ 52 ≤ m ∨ e = -1074)
  | .zero _ => True
  | _ => False

theorem Canonical.zero_or_finite {u : Float.Model.UnpackedFloat} (h : Canonical u) :
    (∃ s, u = .zero s) ∨ ∃ s m e hm, u = .finite s m e hm := by
  cases u with
  | notANumber => cases h
  | infinity s => cases h
  | zero s => exact Or.inl ⟨s, rfl⟩
  | finite s m e hm => exact Or.inr ⟨s, m, e, hm, rfl⟩

theorem value_zero (s : Sign) : value (.zero s) = 0 := rfl

theorem value_finite (s : Sign) (m : ℕ) (e : ℤ) (hm : 0 < m) : value (.finite s m e hm) = signum s * (m * 2 ^ e) := rfl

theorem targetExponent_eq (z : ℤ) : Format.binary64.targetExponent z = max (z - 53) (-1074) := rfl

/-- The exponent to which a number is brought leaves it no more than 53 bits, and no fewer unless it is the last one. -/
theorem target_spec {m : ℕ} {e t : ℤ} (ht : t = Format.binary64.targetExponent (totalExponent m e)) (he : e ≤ t) :
    -1074 ≤ t ∧ m / 2 ^ (t - e).toNat < 2 ^ 53 ∧ (2 ^ 52 ≤ m / 2 ^ (t - e).toNat ∨ t = -1074) := by
  rw [targetExponent_eq, totalExponent] at ht
  refine ⟨by omega, ?_, ?_⟩
  · rw [Nat.div_lt_iff_lt_mul (by positivity), ← pow_add]
    exact Nat.lt_log2_self.trans_le (Nat.pow_le_pow_right (by decide) (by omega))
  · by_cases hlast : t = -1074
    · exact Or.inr hlast
    · left
      have hm : m ≠ 0 := by
        rintro rfl
        rw [Nat.log2_zero] at ht
        omega
      rw [Nat.le_div_iff_mul_le (by positivity), ← pow_add]
      exact (Nat.pow_le_pow_right (by decide) (by omega)).trans (Nat.log2_self_le hm)

/-- A mantissa of 53 bits that is rounded up to 54 is shifted once more, which changes nothing of the value. -/
theorem carried {n : ℕ} {t : ℤ} (ht : -1074 ≤ t) (hn : n ≤ 2 ^ 53) (hbits : 2 ^ 52 ≤ n ∨ t = -1074) :
    ∃ k e, (shiftToTargetExponent Format.binary64 n t .exact).1.mantissa = k ∧
      (shiftToTargetExponent Format.binary64 n t .exact).2 = e ∧
      (k : ℚ) * 2 ^ e = n * 2 ^ t ∧ k < 2 ^ 53 ∧ -1074 ≤ e ∧ (2 ^ 52 ≤ k ∨ e = -1074) := by
  refine ⟨_, _, rfl, rfl, ?_⟩
  simp only [shiftToTargetExponent, shiftToExponent, mantissa_shiftRight, mantissa_ofMantissaAndAccuracy, targetExponent_eq,
    totalExponent]
  rcases hn.lt_or_eq with hlt | rfl
  · have hlog : n.log2 < 53 := by
      by_cases h0 : n = 0
      · rw [h0, Nat.log2_zero]
        decide
      · exact (Nat.log2_lt h0).mpr hlt
    have hshift : (max ((n.log2 : ℤ) + 1 + t - 53) (-1074) - t).toNat = 0 := by omega
    rw [hshift, pow_zero, Nat.div_one, Nat.cast_zero, add_zero]
    exact ⟨rfl, hlt, ht, hbits⟩
  · have hshift : (max (((2 ^ 53 : ℕ).log2 : ℤ) + 1 + t - 53) (-1074) - t).toNat = 1 := by
      rw [Nat.log2_two_pow]
      omega
    rw [hshift]
    refine ⟨?_, by decide, by push_cast; omega, Or.inl (by decide)⟩
    rw [show 2 ^ 53 / 2 ^ 1 = 2 ^ 52 from rfl, Nat.cast_one, zpow_add_one₀ two_ne_zero]
    push_cast
    ring

theorem roundToNearestEven_le (m : ℕ) (acc : Accuracy) : acc.roundToNearestEven m ≤ m + 1 := by
  rcases acc with _ | _ | _ | _ <;> simp only [Accuracy.roundToNearestEven] <;> omega

theorem le_roundToNearestEven (m : ℕ) (acc : Accuracy) : m ≤ acc.roundToNearestEven m := by
  rcases acc with _ | _ | _ | _ <;> simp only [Accuracy.roundToNearestEven] <;> omega

/-- **A rounded mantissa gives the nearest number**, when it has all its bits or stands before the last exponent. -/
theorem Places.nearest {m : ℕ} {t : ℤ} {acc : Accuracy} {x : ℚ} (hx : Places m acc x) (ht : -1074 ≤ t)
    (hm : m < 2 ^ 53) (hbits : 2 ^ 52 ≤ m ∨ t = -1074) : Nearest (acc.roundToNearestEven m * 2 ^ t) (x * 2 ^ t) := by
  have hpos : (0 : ℚ) < 2 ^ t := by positivity
  have hn : (acc.roundToNearestEven m : ℤ) ≤ 2 ^ 53 := by exact_mod_cast (roundToNearestEven_le m acc).trans hm
  refine ⟨⟨acc.roundToNearestEven m, t, by rwa [abs_of_nonneg (by positivity)], ht, by push_cast; rfl⟩, ?_⟩
  rintro r ⟨k, j, hk, hj, rfl⟩
  rw [← sub_mul, abs_mul, abs_of_pos hpos]
  rcases le_or_gt t j with hle | hlt
  · -- a multiple of the same power of two
    obtain ⟨d, rfl⟩ := Int.le.dest hle
    have hr : (k : ℚ) * 2 ^ (t + d) = (k * 2 ^ d : ℤ) * 2 ^ t := by
      rw [zpow_add₀ two_ne_zero, zpow_natCast]
      push_cast
      ring
    rw [hr, ← sub_mul, abs_mul, abs_of_pos hpos]
    exact mul_le_mul_of_nonneg_right (hx.abs_round_sub_le_abs _) hpos.le
  · -- a number of a lower power of two, beyond `2 ^ 52` in the rounded one
    have hfull : (2 : ℚ) ^ 52 ≤ x := by
      have hm52 : 2 ^ 52 ≤ m := hbits.resolve_right (by omega)
      exact le_trans (by exact_mod_cast hm52) hx.le
    have hround := hx.abs_round_sub_le_abs (2 ^ 52)
    rw [Int.cast_pow, Int.cast_ofNat, abs_of_nonpos (sub_nonpos.mpr hfull)] at hround
    have hk' : (k : ℚ) ≤ 2 ^ 53 := by exact_mod_cast (le_abs_self k).trans hk
    have hr : (k : ℚ) * 2 ^ j ≤ 2 ^ 52 * 2 ^ t := by
      calc (k : ℚ) * 2 ^ j ≤ 2 ^ 53 * 2 ^ j := mul_le_mul_of_nonneg_right hk' (by positivity)
        _ = 2 ^ 52 * 2 ^ (j + 1) := by rw [zpow_add_one₀ two_ne_zero]; ring
        _ ≤ 2 ^ 52 * 2 ^ t := by gcongr <;> [norm_num; omega]
    have hdist : (x - 2 ^ 52) * 2 ^ t ≤ |k * 2 ^ j - x * 2 ^ t| := by
      rw [abs_sub_comm]
      exact le_trans (by linarith) (le_abs_self _)
    refine le_trans (mul_le_mul_of_nonneg_right hround hpos.le) (le_trans (le_of_eq ?_) hdist)
    ring

/-- **A mantissa with more bits than are kept is rounded to the nearest number.** -/
theorem round_spec (s : Sign) {m : ℕ} {e : ℤ} {acc : Accuracy} {x : ℚ} (hx : Places m acc x)
    (he : e ≤ Format.binary64.targetExponent (totalExponent m e)) :
    Canonical (roundWithAccuracy Format.binary64 s m e acc) ∧
      Nearest (value (roundWithAccuracy Format.binary64 s m e acc)) (signum s * (x * 2 ^ e)) := by
  obtain ⟨t, htarget⟩ : ∃ t, t = Format.binary64.targetExponent (totalExponent m e) := ⟨_, rfl⟩
  rw [← htarget] at he
  obtain ⟨ht, hm, hbits⟩ := target_spec htarget he
  obtain ⟨d, rfl⟩ := Int.le.dest he
  have hd : (e + d - e).toNat = d := by omega
  rw [hd] at hm hbits
  -- the first shift brings the mantissa to 53 bits, to be rounded
  obtain ⟨em, hem⟩ : ∃ em, em = ExtendedMantissa.ofMantissaAndAccuracy m acc >>> d := ⟨_, rfl⟩
  have hx' : Describes em (x / 2 ^ d) := hem ▸ (describes_ofMantissaAndAccuracy hx).shiftRight d
  have hfirst : shiftToTargetExponent Format.binary64 m e acc = (em, e + d) := by
    simp only [shiftToTargetExponent, shiftToExponent, ← htarget, hd, hem]
  have hmantissa : em.mantissa = m / 2 ^ d := by rw [hem, mantissa_shiftRight, mantissa_ofMantissaAndAccuracy]
  rw [← hmantissa] at hm hbits
  have hnear : Nearest (em.roundedMantissa * 2 ^ (e + d)) (x / 2 ^ d * 2 ^ (e + d)) := Places.nearest hx' ht hm hbits
  -- the second shift takes care of a carry
  obtain ⟨k, e', hk, he', hvalue, hcanonical⟩ := carried ht ((roundToNearestEven_le em.mantissa em.accuracy).trans hm)
    (hbits.imp_left fun h => h.trans (le_roundToNearestEven em.mantissa em.accuracy))
  have hzpow : x / 2 ^ d * 2 ^ (e + d) = x * (2 : ℚ) ^ e := by
    rw [zpow_add₀ two_ne_zero, zpow_natCast]
    field_simp
  rw [ExtendedMantissa.roundedMantissa, hzpow, ← hvalue] at hnear
  have hsigned : Nearest (signum s * (k * 2 ^ e')) (signum s * (x * 2 ^ e)) := hnear.signum_mul s
  have hresult : roundWithAccuracy Format.binary64 s m e acc =
      if h : k = 0 then .zero s else .finite s k e' (Nat.pos_of_ne_zero h) := by
    subst hk he'
    unfold roundWithAccuracy
    rw [hfirst]
    rfl
  rw [hresult]
  by_cases h0 : k = 0
  · rw [dif_pos h0]
    rw [h0, Nat.cast_zero, zero_mul, mul_zero] at hsigned
    exact ⟨trivial, hsigned⟩
  · rw [dif_neg h0]
    exact ⟨hcanonical, hsigned⟩

end Machine

end TurtlePlant
