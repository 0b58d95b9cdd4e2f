import TurtlePlant.Proofs.Rounding

/-!
# Rounded operations

A number by its parts is a sign, a mantissa and an exponent, and no bit of it is wasted if the mantissa has 53 bits or stands
before the last exponent (`Canonical`). What the four operations give of such numbers is such a number again, and the one
nearest to the exact result (`RoundsTo`): `roundsTo_add`, `roundsTo_sub`, `roundsTo_mul` and `roundsTo_div`. Integers before an
exponent are rounded in the same way (`roundsTo_normalize`).
-/

namespace TurtlePlant

namespace Machine

open Float.Model (Format totalExponent)
open Float.Model.UnpackedFloat

/-! ## Parts -/

/-- Parts without a wasted bit that make the number nearest to `q`. -/
structure RoundsTo (u : Float.Model.UnpackedFloat) (q : ℚ) : Prop where
  canonical : Canonical u
  nearest : Nearest (value u) q

/-- What has no bit wasted has a value that can be represented. -/
theorem representable_of_canonical {u : Float.Model.UnpackedFloat} (h : Canonical u) : Representable (value u) := by
  obtain ⟨s, rfl⟩ | ⟨s, m, e, hm, rfl⟩ := h.zero_or_finite
  · exact representable_zero
  · exact (representable_mul_zpow h.1.le h.2.1).signum_mul s

/-- Parts without a wasted bit are what they are rounded to. -/
theorem roundsTo_value {u : Float.Model.UnpackedFloat} (h : Canonical u) : RoundsTo u (value u) :=
  ⟨h, (representable_of_canonical h).nearest⟩

theorem value_neg (u : Float.Model.UnpackedFloat) : value u.neg = -value u := by
  cases u with
  | finite s m e hm =>
    cases s with
    | positive =>
      show -1 * ((m : ℚ) * 2 ^ e) = -(1 * (m * 2 ^ e))
      ring
    | negative =>
      show 1 * ((m : ℚ) * 2 ^ e) = -(-1 * (m * 2 ^ e))
      ring
  | _ => exact neg_zero.symm

theorem canonical_neg {u : Float.Model.UnpackedFloat} (h : Canonical u) : Canonical u.neg := by
  cases u <;> exact h

/-! ## Mantissas before another exponent -/

/-- A mantissa brought to a lower exponent makes the same number. -/
theorem decreaseExponent_spec (m : ℕ) (e t : ℤ) :
    ∃ d : ℕ, decreaseExponent m e t = (m * 2 ^ d, e - d) ∧ e - d = min e t ∧
      ((m * 2 ^ d : ℕ) : ℚ) * 2 ^ (e - d) = m * 2 ^ e := by
  refine ⟨(e - t).toNat, ?_, by omega, ?_⟩
  · rw [decreaseExponent, Nat.shiftLeft_eq]
  · have hpow : (2 : ℚ) ^ e = 2 ^ (e - (e - t).toNat) * 2 ^ (e - t).toNat := by
      rw [← zpow_natCast, ← zpow_add₀ two_ne_zero]
      congr 1
      omega
    rw [hpow]
    push_cast
    ring

theorem log2_mul_two_pow {m : ℕ} (hm : m ≠ 0) (d : ℕ) : (m * 2 ^ d).log2 = m.log2 + d := by
  induction d with
  | zero => rw [pow_zero, mul_one, add_zero]
  | succ d ih => rw [pow_succ, ← mul_assoc, mul_comm, Nat.log2_two_mul (by positivity), ih, add_assoc]

/-- A mantissa and an exponent are rounded to the nearest number. -/
theorem roundsTo_round (s : Sign) {m : ℕ} (hm : m ≠ 0) (e : ℤ) :
    RoundsTo (Float.Model.UnpackedFloat.round Format.binary64 s m e) (signum s * (m * 2 ^ e)) := by
  obtain ⟨d, hd, hmin, hvalue⟩ := decreaseExponent_spec m e (Format.binary64.targetExponent (totalExponent m e))
  have htotal : totalExponent (m * 2 ^ d) (e - d) = totalExponent m e := by
    rw [totalExponent, totalExponent, log2_mul_two_pow hm]
    push_cast
    ring
  have hplaces : Places (m * 2 ^ d) .exact ((m * 2 ^ d : ℕ) : ℚ) := rfl
  have hspec := round_spec s (e := e - d) hplaces (by rw [htotal, hmin]; exact min_le_right _ _)
  rw [hvalue] at hspec
  simp only [Float.Model.UnpackedFloat.round, hd]
  exact ⟨hspec.1, hspec.2⟩

/-- An integer before an exponent is rounded to the nearest number. -/
theorem roundsTo_normalize (n e : ℤ) (s : Sign) :
    RoundsTo (Float.Model.UnpackedFloat.normalize Format.binary64 n e s) (n * 2 ^ e) := by
  unfold Float.Model.UnpackedFloat.normalize
  rcases lt_trichotomy n 0 with hn | rfl | hn
  · rw [compare_lt_iff_lt.mpr hn]
    have h := roundsTo_round .negative (m := (-n).toNat) (by omega) e
    have hcast : (((-n).toNat : ℕ) : ℚ) = -n := by exact_mod_cast Int.toNat_of_nonneg (by omega : 0 ≤ -n)
    rwa [hcast, show signum .negative * (-(n : ℚ) * 2 ^ e) = n * 2 ^ e by simp only [signum]; ring] at h
  · rw [compare_eq_iff_eq.mpr rfl, Int.cast_zero, zero_mul]
    exact roundsTo_value (u := .zero s) trivial
  · rw [compare_gt_iff_gt.mpr hn]
    have h := roundsTo_round .positive (m := n.toNat) (by omega) e
    have hcast : ((n.toNat : ℕ) : ℚ) = n := by exact_mod_cast Int.toNat_of_nonneg hn.le
    rwa [hcast, show signum .positive * ((n : ℚ) * 2 ^ e) = n * 2 ^ e by simp only [signum]; ring] at h

/-! ## Sums -/

/-- A sign applied to a number. -/
theorem cast_apply (s : Sign) (m : ℕ) : ((s.apply m : ℤ) : ℚ) = signum s * m := by
  cases s with
  | positive => simp [Sign.apply, signum]
  | negative => simp [Sign.apply, signum]

/-- Two mantissas brought to one exponent. -/
theorem exists_common (s s' : Sign) (m m' : ℕ) (e e' : ℤ) :
    ∃ k k' : ℕ, (decreaseExponent m e (min e e')).1 = k ∧ (decreaseExponent m' e' (min e e')).1 = k' ∧
      ((s.apply k : ℤ) : ℚ) * 2 ^ min e e' = signum s * (m * 2 ^ e) ∧
      ((s'.apply k' : ℤ) : ℚ) * 2 ^ min e e' = signum s' * (m' * 2 ^ e') := by
  obtain ⟨d, hd, hmin, hvalue⟩ := decreaseExponent_spec m e (min e e')
  obtain ⟨d', hd', hmin', hvalue'⟩ := decreaseExponent_spec m' e' (min e e')
  rw [hmin, min_eq_right (min_le_left e e')] at hvalue
  rw [hmin', min_eq_right (min_le_right e e')] at hvalue'
  refine ⟨_, _, rfl, rfl, ?_, ?_⟩
  · rw [hd, cast_apply, ← hvalue, mul_assoc]
  · rw [hd', cast_apply, ← hvalue', mul_assoc]

/-- **Sums are rounded to the nearest number.** -/
theorem roundsTo_add {u v : Float.Model.UnpackedFloat} (hu : Canonical u) (hv : Canonical v) :
    RoundsTo (u.add Format.binary64 v) (value u + value v) := by
  obtain ⟨s, rfl⟩ | ⟨s, m, e, hm, rfl⟩ := hu.zero_or_finite <;>
    obtain ⟨s', rfl⟩ | ⟨s', m', e', hm', rfl⟩ := hv.zero_or_finite
  · rw [value_zero, value_zero, add_zero]
    cases s <;> cases s' <;> exact roundsTo_value trivial
  · rw [value_zero, zero_add]
    exact roundsTo_value hv
  · rw [value_zero, add_zero]
    exact roundsTo_value hu
  · obtain ⟨k, k', hk, hk', hvalue, hvalue'⟩ := exists_common s s' m m' e e'
    have h := roundsTo_normalize (s.apply k + s'.apply k') (min e e') .positive
    rw [Int.cast_add, add_mul, hvalue, hvalue', ← hk, ← hk'] at h
    exact h

/-- A difference is the sum with the other number of the opposite sign. -/
theorem sub_eq_add {u v : Float.Model.UnpackedFloat} (hu : Canonical u) (hv : Canonical v) :
    u.sub Format.binary64 v = u.add Format.binary64 v.neg := by
  have hneg : ∀ (s : Sign) (m : ℤ), (-s).apply m = -s.apply m := by
    intro s m
    cases s with
    | positive => rfl
    | negative => exact (neg_neg m).symm
  obtain ⟨s, rfl⟩ | ⟨s, m, e, hm, rfl⟩ := hu.zero_or_finite <;>
    obtain ⟨s', rfl⟩ | ⟨s', m', e', hm', rfl⟩ := hv.zero_or_finite
  · rfl
  · rfl
  · rfl
  · show Float.Model.UnpackedFloat.normalize Format.binary64 (s.apply _ - s'.apply _) _ _ =
      Float.Model.UnpackedFloat.normalize Format.binary64 (s.apply _ + (-s').apply _) _ _
    rw [hneg]
    rfl

/-- Differences are rounded to the nearest number. -/
theorem roundsTo_sub {u v : Float.Model.UnpackedFloat} (hu : Canonical u) (hv : Canonical v) :
    RoundsTo (u.sub Format.binary64 v) (value u - value v) := by
  have h := roundsTo_add hu (canonical_neg hv)
  rwa [value_neg, ← sub_eq_add_neg, ← sub_eq_add hu hv] at h

/-! ## Products and quotients -/

/-- A mantissa with 53 bits, or one before a low exponent, has no need of a lower exponent. -/
theorem le_target {m : ℕ} {e : ℤ} (h : 2 ^ 52 ≤ m ∨ e ≤ -1074) :
    e ≤ Format.binary64.targetExponent (totalExponent m e) := by
  rw [targetExponent_eq, totalExponent]
  rcases h with hm | he
  · have h0 : m ≠ 0 := by omega
    have hlog : 52 ≤ m.log2 := (Nat.le_log2 h0).mpr hm
    omega
  · omega

theorem signum_mul (s s' : Sign) : signum (s * s') = signum s * signum s' := by
  cases s <;> cases s' <;> simp only [signum] <;> norm_num

theorem signum_div (s s' : Sign) : signum (s / s') = signum s / signum s' := by
  rw [show s / s' = s * s' by cases s <;> cases s' <;> rfl, signum_mul]
  cases s' with
  | positive => exact (mul_one _).trans (div_one _).symm
  | negative =>
    show signum s * -1 = signum s / -1
    rw [div_neg, div_one, mul_neg_one]

/-- **Products are rounded to the nearest number.** -/
theorem roundsTo_mul {u v : Float.Model.UnpackedFloat} (hu : Canonical u) (hv : Canonical v) :
    RoundsTo (u.mul Format.binary64 v) (value u * value v) := by
  obtain ⟨s, rfl⟩ | ⟨s, m, e, hm, rfl⟩ := hu.zero_or_finite <;>
    obtain ⟨s', rfl⟩ | ⟨s', m', e', hm', rfl⟩ := hv.zero_or_finite
  · rw [value_zero, zero_mul]
    exact roundsTo_value trivial
  · rw [value_zero, zero_mul]
    exact roundsTo_value trivial
  · rw [value_zero, mul_zero]
    exact roundsTo_value trivial
  · have hbits : 2 ^ 52 ≤ m * m' ∨ e + e' ≤ -1074 := by
      obtain ⟨-, he, hm52⟩ := hu
      obtain ⟨-, he', hm52'⟩ := hv
      rcases hm52 with h | rfl
      · exact Or.inl (le_mul_of_le_of_one_le h hm')
      · rcases hm52' with h' | rfl
        · exact Or.inl (le_mul_of_one_le_of_le hm h')
        · right
          omega
    have hplaces : Places (m * m') .exact ((m * m' : ℕ) : ℚ) := rfl
    have hspec := round_spec (s * s') hplaces (le_target hbits)
    have hvalue : signum (s * s') * (((m * m' : ℕ) : ℚ) * 2 ^ (e + e')) =
        value (.finite s m e hm) * value (.finite s' m' e' hm') := by
      show _ = signum s * (m * 2 ^ e) * (signum s' * (m' * 2 ^ e'))
      rw [signum_mul, zpow_add₀ two_ne_zero]
      push_cast
      ring
    rw [hvalue] at hspec
    exact ⟨hspec.1, hspec.2⟩

/-- What is left of a division tells where the quotient lies. -/
theorem places_div (m : ℕ) {n : ℕ} (hn : 0 < n) : Places (m / n) (accuracyOfFraction (m % n) n) ((m : ℚ) / n) := by
  have hn' : (0 : ℚ) < n := by exact_mod_cast hn
  have hmod : ((m % n : ℕ) : ℚ) < n := by exact_mod_cast Nat.mod_lt m hn
  have hm : (m : ℚ) / n = (m / n : ℕ) + (m % n : ℕ) / n := by
    have hsum : (m : ℚ) = (m / n : ℕ) * n + (m % n : ℕ) := by exact_mod_cast (Nat.div_add_mod' m n).symm
    rw [div_eq_iff hn'.ne', add_mul, div_mul_cancel₀ _ hn'.ne']
    exact hsum
  rw [hm]
  unfold accuracyOfFraction
  by_cases h0 : m % n = 0
  · rw [if_pos h0, h0, Nat.cast_zero, zero_div, add_zero]
    rfl
  · rw [if_neg h0]
    have hpos : (0 : ℚ) < (m % n : ℕ) / n := div_pos (by exact_mod_cast Nat.pos_of_ne_zero h0) hn'
    have hone : ((m % n : ℕ) : ℚ) / n < 1 := (div_lt_one hn').mpr hmod
    rcases lt_trichotomy (2 * (m % n)) n with h | h | h
    · rw [compare_lt_iff_lt.mpr h]
      have hcast : 2 * ((m % n : ℕ) : ℚ) < n := by exact_mod_cast h
      have hhalf : ((m % n : ℕ) : ℚ) / n < 1 / 2 := by
        rw [div_lt_iff₀ hn']
        linarith
      constructor <;> linarith
    · rw [compare_eq_iff_eq.mpr h]
      have hcast : 2 * ((m % n : ℕ) : ℚ) = n := by exact_mod_cast h
      have hhalf : ((m % n : ℕ) : ℚ) / n = 1 / 2 := by
        rw [div_eq_iff hn'.ne']
        linarith
      rw [hhalf]
      rfl
    · rw [compare_gt_iff_gt.mpr h]
      have hcast : (n : ℚ) < 2 * ((m % n : ℕ) : ℚ) := by exact_mod_cast h
      have hhalf : 1 / 2 < ((m % n : ℕ) : ℚ) / n := by
        rw [lt_div_iff₀ hn']
        linarith
      constructor <;> linarith

/-- A quotient has enough bits: the exponent at which it is found is not above the one that it is brought to. -/
theorem divCore_spec {m n : ℕ} (hm : 0 < m) (hn : 0 < n) (e f : ℤ) :
    ∃ k g acc x, divCore Format.binary64 m e n f = (k, g, acc) ∧ Places k acc x ∧
      g ≤ Format.binary64.targetExponent (totalExponent k g) ∧ x * (2 : ℚ) ^ g = m * 2 ^ e / (n * 2 ^ f) := by
  obtain ⟨g, hg⟩ : ∃ g, g = min (e - f)
      (Format.binary64.targetExponent (totalExponent m e - totalExponent n f)) := ⟨_, rfl⟩
  obtain ⟨d, hd⟩ := Int.le.dest (hg ▸ min_le_left _ _ : g ≤ e - f)
  have hshift : (e - f - g).toNat = d := by omega
  refine ⟨m * 2 ^ d / n, g, accuracyOfFraction (m * 2 ^ d % n) n, (m * 2 ^ d : ℕ) / n, ?_, places_div _ hn, ?_, ?_⟩
  · simp only [divCore, ← hg, hshift, Nat.shiftLeft_eq]
  · -- a quotient of numbers with so many bits more and less has no fewer than the difference
    have hlog : (m.log2 : ℤ) + d - n.log2 - 1 ≤ (m * 2 ^ d / n).log2 := by
      rcases le_or_gt (m.log2 + d) n.log2 with hle | hlt
      · omega
      · obtain ⟨k, hk⟩ := Nat.exists_eq_add_of_lt hlt
        have hquotient : 2 ^ k ≤ m * 2 ^ d / n := by
          rw [Nat.le_div_iff_mul_le hn]
          calc 2 ^ k * n ≤ 2 ^ k * 2 ^ (n.log2 + 1) := Nat.mul_le_mul_left _ Nat.lt_log2_self.le
            _ = 2 ^ m.log2 * 2 ^ d := by rw [← pow_add, ← pow_add, hk]; congr 1; omega
            _ ≤ m * 2 ^ d := Nat.mul_le_mul_right _ (Nat.log2_self_le hm.ne')
        have h0 : m * 2 ^ d / n ≠ 0 := (lt_of_lt_of_le (by positivity) hquotient).ne'
        have hle : k ≤ (m * 2 ^ d / n).log2 := (Nat.le_log2 h0).mpr hquotient
        omega
    rw [targetExponent_eq, totalExponent, totalExponent] at hg
    rw [targetExponent_eq, totalExponent]
    omega
  · have hpow : (2 : ℚ) ^ e = 2 ^ d * 2 ^ g * 2 ^ f := by
      rw [← zpow_natCast, ← zpow_add₀ two_ne_zero, ← zpow_add₀ two_ne_zero]
      congr 1
      omega
    have hn' : (n : ℚ) ≠ 0 := by exact_mod_cast hn.ne'
    rw [hpow]
    push_cast
    field_simp

/-- **Quotients are rounded to the nearest number.** -/
theorem roundsTo_div {u v : Float.Model.UnpackedFloat} (hu : Canonical u) (hv : Canonical v) (h0 : value v ≠ 0) :
    RoundsTo (u.div Format.binary64 v) (value u / value v) := by
  obtain ⟨s', rfl⟩ | ⟨s', m', e', hm', rfl⟩ := hv.zero_or_finite
  · exact absurd (value_zero s') h0
  obtain ⟨s, rfl⟩ | ⟨s, m, e, hm, rfl⟩ := hu.zero_or_finite
  · rw [value_zero, zero_div]
    exact roundsTo_value trivial
  · obtain ⟨k, g, acc, x, hcore, hx, hg, hquotient⟩ := divCore_spec hm hm' e e'
    have hspec := round_spec (s / s') hx hg
    have hvalue : signum (s / s') * (x * 2 ^ g) = value (.finite s m e hm) / value (.finite s' m' e' hm') := by
      rw [signum_div, hquotient, div_mul_div_comm]
      rfl
    have hdiv : div Format.binary64 (.finite s m e hm) (.finite s' m' e' hm') =
        roundWithAccuracy Format.binary64 (s / s') (divCore Format.binary64 m e m' e').1
          (divCore Format.binary64 m e m' e').2.1 (divCore Format.binary64 m e m' e').2.2 := rfl
    rw [hvalue] at hspec
    rw [hdiv, hcore]
    exact ⟨hspec.1, hspec.2⟩

end Machine

end TurtlePlant
