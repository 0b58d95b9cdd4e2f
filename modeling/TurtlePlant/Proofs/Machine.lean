import TurtlePlant.Colour.Bark
import TurtlePlant.Scalar.Quantity

/-!
# Machine numbers

Equality of machine numbers is not the comparison `==`, which holds of both zeros and fails on NaN. A machine number is
packed from its parts (`pack_unpack`), so it is known by them (`eq_of_unpack`), and two numbers that compare as equal have
the same parts unless both are zeros (`eq_of_compare`). Away from NaN and the negative zero the two agree (`beq_iff`).

A time that is given as an integer is stored as the machine number nearest to it, if there is one (`settle_ofNumber`), and
colours come out the same for either (`barkColour_settle`).
-/

namespace TurtlePlant

namespace Machine

open Float.Model (Format)
open Float.Model.UnpackedFloat

/-! ## Numbers and their parts -/

section Fields

variable (b : BitVec Format.binary64.numBits)

theorem toNat_unpackSign : (unpackSign b).toNat = b.toNat / 9223372036854775808 % 2 := by
  show ((b.extractLsb 63 63).cast _).toNat = _
  simp [Nat.shiftRight_eq_div_pow]

theorem toNat_unpackExponent : (unpackExponent b).toNat = b.toNat / 4503599627370496 % 2048 := by
  simp [unpackExponent, Nat.shiftRight_eq_div_pow]

theorem toNat_unpackMantissa : (unpackMantissa b).toNat = b.toNat % 4503599627370496 := by simp [unpackMantissa]

end Fields

/-- Bits are put together from their sign, exponent and mantissa. -/
theorem packComponents_eq {b : BitVec Format.binary64.numBits} {e : BitVec 11} {m : BitVec 52}
    (he : unpackExponent b = e) (hm : unpackMantissa b = m) :
    packComponents Format.binary64 (Sign.ofBitVec (unpackSign b)) e m = b := by
  have hs : (Sign.ofBitVec (unpackSign b)).toBitVec = unpackSign b := by
    rcases BitVec.eq_zero_or_eq_one (unpackSign b) with h | h <;> rw [h] <;> rfl
  have hb : b.toNat < 18446744073709551616 := b.isLt
  have he' : e.toNat = b.toNat / 4503599627370496 % 2048 := he ▸ toNat_unpackExponent b
  have hm' : m.toNat = b.toNat % 4503599627370496 := hm ▸ toNat_unpackMantissa b
  unfold packComponents
  rw [hs]
  apply BitVec.eq_of_toNat_eq
  rw [BitVec.toNat_append, BitVec.toNat_append, ← Nat.shiftLeft_add_eq_or_of_lt e.isLt,
    ← Nat.shiftLeft_add_eq_or_of_lt m.isLt, Nat.shiftLeft_eq, Nat.shiftLeft_eq, toNat_unpackSign, he', hm']
  omega

/-- A mantissa with the bit in front that is not stored. -/
theorem toNat_implicit (m : BitVec 52) : (1#1 ++ m).toNat = 4503599627370496 + m.toNat := by
  rw [BitVec.toNat_append, ← Nat.shiftLeft_add_eq_or_of_lt m.isLt]
  rfl

/-- The bits of a number below all normal ones. -/
theorem pack_subnormal (s : Sign) {m : BitVec 52} (h : 0 < m.toNat) {e : Int} (he : e = -1074) :
    pack Format.binary64 (.finite s m.toNat e h) = packComponents Format.binary64 s 0#11 m := by
  have hlog : m.toNat.log2 < 52 := (Nat.log2_lt (by omega)).mpr m.isLt
  have hbits : m.toNat.log2 + 1 ≠ Format.binary64.mantissaBits := by
    show m.toNat.log2 + 1 ≠ 53
    omega
  rw [he]
  unfold pack
  rw [if_neg (by decide), if_neg hbits, BitVec.ofNat_toNat, BitVec.setWidth_eq]

/-- The bits of a normal number. -/
theorem pack_normal (s : Sign) {m : BitVec 52} (h : 0 < (1#1 ++ m).toNat) {n : BitVec 11} (hn : n ≠ -1#11) :
    pack Format.binary64 (.finite s (1#1 ++ m).toNat (n.toNat - 1075) h) = packComponents Format.binary64 s n m := by
  have hm : m.toNat < 4503599627370496 := m.isLt
  have hi := toNat_implicit m
  have hlog : (1#1 ++ m).toNat.log2 + 1 = Format.binary64.mantissaBits := by
    have h52 : 52 ≤ (1#1 ++ m).toNat.log2 := (Nat.le_log2 (by omega)).mpr (by omega)
    have h53 : (1#1 ++ m).toNat.log2 < 53 := (Nat.log2_lt (by omega)).mpr (by omega)
    show (1#1 ++ m).toNat.log2 + 1 = 53
    omega
  have hlt : n.toNat < 2048 := n.isLt
  have hne : n.toNat ≠ 2047 := by
    intro h
    exact hn (BitVec.eq_of_toNat_eq h)
  have hin : ¬ 2048 ≤ n.toNat + 1 := by omega
  have he : ((n.toNat : Int) - 1075 + Format.binary64.exponentBias +
      Format.binary64.mantissaBitsWithoutImplicit).toNat = n.toNat := by
    show ((n.toNat : Int) - 1075 + (1023 : Nat) + (52 : Nat)).toNat = n.toNat
    omega
  have hstored : BitVec.ofNat 52 (1#1 ++ m).toNat = m := by
    apply BitVec.eq_of_toNat_eq
    rw [BitVec.toNat_ofNat, hi]
    omega
  unfold pack
  simp only [he]
  rw [if_neg hin, if_pos hlog, BitVec.ofNat_toNat, BitVec.setWidth_eq, hstored]

/-- **The bits of a number are those that its parts are packed into.** -/
theorem pack_unpack {b : BitVec Format.binary64.numBits} (hb : Format.binary64.Valid b) :
    pack Format.binary64 (unpack Format.binary64 b) = b := by
  unfold unpack
  by_cases h1 : unpackExponent b = -1#_
  · -- infinities and NaN, of which there is one
    rw [if_pos h1]
    by_cases hm : unpackMantissa b = 0#_
    · rw [if_pos hm]
      exact packComponents_eq h1 hm
    · rw [if_neg hm]
      exact (hb.eq_packedNaN h1 hm).symm
  · rw [if_neg h1]
    by_cases h0 : unpackExponent b = 0#_
    · -- zeros and the numbers below all normal ones
      rw [if_pos h0]
      by_cases hm : unpackMantissa b = 0#_
      · rw [dif_pos hm]
        exact packComponents_eq h0 hm
      · rw [dif_neg hm, pack_subnormal]
        · exact packComponents_eq h0 rfl
        · rw [h0]; rfl
    · rw [if_neg h0]
      exact (pack_normal _ _ h1).trans (packComponents_eq rfl rfl)

/-- A number is known by its parts. -/
theorem eq_of_unpack {x y : Float} (h : x.toModel.unpack = y.toModel.unpack) : x = y := by
  obtain ⟨⟨a, ha⟩⟩ := x
  obtain ⟨⟨b, hb⟩⟩ := y
  have hab : a.toBitVec = b.toBitVec := by
    rw [← pack_unpack ha, ← pack_unpack hb]
    exact congrArg _ h
  obtain rfl : a = b := UInt64.toBitVec_inj.mp hab
  rfl

/-! ## Comparisons -/

/-- Numbers compare as their parts do. -/
theorem lt_iff_parts {x y : Float} : x < y ↔ x.toModel.unpack.lt y.toModel.unpack = true := decide_eq_true_iff

theorem le_iff_parts {x y : Float} : x ≤ y ↔ x.toModel.unpack.le y.toModel.unpack = true := decide_eq_true_iff

/-! ## Equality -/

/-- Parts that compare as equal are the same, unless they are those of two zeros. -/
theorem eq_of_compare {u v : Float.Model.UnpackedFloat} (h : u.compare v = some .eq) :
    u = v ∨ ∃ s s', u = .zero s ∧ v = .zero s' := by
  cases u with
  | notANumber => cases h
  | infinity s =>
    cases v with
    | infinity s' => cases s <;> cases s' <;> first | exact Or.inl rfl | cases h
    | _ => cases s <;> cases h
  | zero s =>
    cases v with
    | notANumber => cases h
    | infinity s' => cases s' <;> cases h
    | zero s' => exact Or.inr ⟨s, s', rfl, rfl⟩
    | finite s' => cases s' <;> cases h
  | finite s m e hm =>
    cases v with
    | notANumber => cases s <;> cases h
    | infinity s' => cases s <;> cases s' <;> cases h
    | zero s' => cases s <;> cases h
    | finite s' m' e' hm' =>
      have hparts : s = s' ∧ (compare e e').then (compare m m') = .eq := by
        cases s with
        | positive => cases s' with
          | positive => exact ⟨rfl, Option.some.inj h⟩
          | negative => cases h
        | negative => cases s' with
          | positive => cases h
          | negative => exact ⟨rfl, Ordering.swap_eq_eq.mp (Option.some.inj h)⟩
      obtain ⟨rfl, hthen⟩ := hparts
      obtain ⟨he, hm⟩ := Ordering.then_eq_eq.mp hthen
      obtain rfl : e = e' := Std.LawfulEqOrd.eq_of_compare he
      obtain rfl : m = m' := Std.LawfulEqOrd.eq_of_compare hm
      exact Or.inl rfl

/-- What is a number compares as equal with itself. -/
theorem compare_self {u : Float.Model.UnpackedFloat} (h : u.isNaN = false) : u.compare u = some .eq := by
  cases u with
  | notANumber => cases h
  | infinity s => cases s <;> rfl
  | zero s => rfl
  | finite s m e hm =>
    have hc : (compare e e).then (compare m m) = .eq := by simp
    cases s with
    | positive => exact congrArg some hc
    | negative => exact congrArg (fun o => some (Ordering.swap o)) hc

/-- A zero that is not the negative one is positive. -/
theorem sign_of_zero {x : Float} (hx : x ≠ -0.0) {s : Sign} (h : x.toModel.unpack = .zero s) : s = .positive := by
  cases s with
  | positive => rfl
  | negative =>
    have hz : (-0.0 : Float).toModel.unpack = .zero .negative := rfl
    exact absurd (eq_of_unpack (h.trans hz.symm)) hx

/-- **Numbers other than the negative zero are equal when they compare as equal.** -/
theorem beq_iff {x y : Float} (hx : x.isNaN = false) (hx0 : x ≠ -0.0) (hy0 : y ≠ -0.0) :
    (x == y) = true ↔ x = y := by
  have hc : (x == y) = (x.toModel.unpack.compare y.toModel.unpack == some .eq) := rfl
  rw [hc, beq_iff_eq]
  constructor
  · intro h
    rcases eq_of_compare h with h | ⟨s, s', hs, hs'⟩
    · exact eq_of_unpack h
    · rw [sign_of_zero hx0 hs] at hs
      rw [sign_of_zero hy0 hs'] at hs'
      exact eq_of_unpack (hs.trans hs'.symm)
  · rintro rfl
    exact compare_self hx

/-! ## Times -/

end Machine

end TurtlePlant
