import Mathlib

/-!
# Doubles without rounding

A double holds a number exactly when the number is a whole number below 2⁵³ times a power of two that is
neither too large nor too small. Of such numbers it keeps the first bit of the significand in front, by
shifting. `IsExactly` says which number a double is, and the operations are shown to give the exact result
wherever the result is again of this form: the bits that rounding takes away are all zero.

The numbers here are not negative, and their exponents are far from those that overflow.
-/

namespace Courseware.Dyadic

open Float.Model Float.Model.UnpackedFloat

variable {significand other : Nat} {exponent second : Int}

/-- The number `significand · 2 ^ exponent` as it is unpacked: the significand is shifted until it has 53
bits. -/
def unpacked (significand : Nat) (exponent : Int) : UnpackedFloat :=
  if h : significand = 0 then .zero .positive
  else .finite .positive (significand * 2 ^ (52 - significand.log2))
    (exponent - (52 - significand.log2 : Nat)) (by positivity)

/-- A double is the number `significand · 2 ^ exponent`, without rounding. -/
def IsExactly (value : Float) (significand : Nat) (exponent : Int) : Prop :=
  value.toModel.unpack = unpacked significand exponent

theorem unpacked_zero (exponent : Int) : unpacked 0 exponent = .zero .positive := dif_pos rfl

theorem unpacked_of_ne_zero (full : significand ≠ 0) :
    unpacked significand exponent =
      .finite .positive (significand * 2 ^ (52 - significand.log2))
        (exponent - (52 - significand.log2 : Nat)) (by positivity) :=
  dif_neg full

/-! ## Shifting -/

theorem log2_le_of_lt (full : significand ≠ 0) (small : significand < 2 ^ 53) :
    significand.log2 ≤ 52 := by
  have := (Nat.log2_lt full).mpr small
  omega

/-- Shifting brings the first bit of a significand to the front. -/
theorem log2_shifted (full : significand ≠ 0) (small : significand < 2 ^ 53) :
    (significand * 2 ^ (52 - significand.log2)).log2 = 52 := by
  have hlog := log2_le_of_lt full small
  obtain ⟨low, high⟩ := (Nat.log2_eq_iff full).mp rfl
  rw [Nat.log2_eq_iff (by positivity)]
  constructor
  · calc 2 ^ 52
      _ = 2 ^ significand.log2 * 2 ^ (52 - significand.log2) := by rw [← pow_add]; congr 1; omega
      _ ≤ significand * 2 ^ (52 - significand.log2) := Nat.mul_le_mul_right _ low
  · calc significand * 2 ^ (52 - significand.log2)
      _ < 2 ^ (significand.log2 + 1) * 2 ^ (52 - significand.log2) :=
        Nat.mul_lt_mul_of_pos_right high (by positivity)
      _ = 2 ^ 53 := by rw [← pow_add]; congr 1; omega

theorem mantissa_shiftRight (extended : ExtendedMantissa) (shift : Nat) :
    (extended >>> shift).mantissa = extended.mantissa / 2 ^ shift := by
  induction shift with
  | zero => simp [HShiftRight.hShiftRight, Nat.repeat]
  | succ shift ih =>
    calc (extended >>> (shift + 1)).mantissa
      _ = (extended >>> shift).mantissa / 2 := rfl
      _ = extended.mantissa / 2 ^ (shift + 1) := by rw [ih, Nat.div_div_eq_div_mul, pow_succ]

/-- Zeros that are shifted out leave no trace. -/
theorem shiftRight_exact (significand shift : Nat) :
    ExtendedMantissa.ofMantissaAndAccuracy (significand * 2 ^ shift) .exact >>> shift =
      ExtendedMantissa.ofMantissaAndAccuracy significand .exact := by
  induction shift generalizing significand with
  | zero => rw [pow_zero, mul_one]; rfl
  | succ shift ih =>
    have hshift : significand * 2 ^ (shift + 1) = (significand * 2) * 2 ^ shift := by ring
    calc ExtendedMantissa.ofMantissaAndAccuracy (significand * 2 ^ (shift + 1)) .exact >>> (shift + 1)
      _ = (ExtendedMantissa.ofMantissaAndAccuracy ((significand * 2) * 2 ^ shift) .exact >>>
            shift).shiftRightOne := by rw [hshift]; rfl
      _ = ExtendedMantissa.ofMantissaAndAccuracy significand .exact := by
        rw [ih]
        simp [ExtendedMantissa.ofMantissaAndAccuracy, ExtendedMantissa.shiftRightOne]

/-! ## Rounding what needs no rounding -/

/-- The exponent that belongs to a significand of 53 bits, whatever zeros stand behind it. -/
theorem targetExponent_of_full (full : significand.log2 = 52) (low : -1074 ≤ exponent) (shift : Nat) :
    Format.binary64.targetExponent (totalExponent (significand * 2 ^ shift) (exponent - shift)) =
      exponent := by
  have hpos : significand ≠ 0 := by
    rintro rfl
    simp at full
  have hlog : (significand * 2 ^ shift).log2 = 52 + shift := by
    obtain ⟨least, most⟩ := (Nat.log2_eq_iff hpos).mp full
    rw [Nat.log2_eq_iff (by positivity)]
    constructor
    · rw [pow_add]
      exact Nat.mul_le_mul_right _ least
    · rw [show 52 + shift + 1 = 52 + 1 + shift by omega, pow_add]
      exact Nat.mul_lt_mul_of_pos_right most (by positivity)
  simp only [Format.targetExponent, totalExponent, hlog, Format.mantissaBits, Format.minExponent]
  omega

/-- Rounding a significand of 53 bits with zeros behind it drops the zeros. -/
theorem roundWithAccuracy_of_full (full : significand.log2 = 52) (low : -1074 ≤ exponent) (shift : Nat)
    (positive : 0 < significand) :
    roundWithAccuracy Format.binary64 .positive (significand * 2 ^ shift) (exponent - shift) .exact =
      .finite .positive significand exponent positive := by
  have hfirst : shiftToTargetExponent Format.binary64 (significand * 2 ^ shift) (exponent - shift) .exact =
      (ExtendedMantissa.ofMantissaAndAccuracy significand .exact, exponent) := by
    rw [shiftToTargetExponent, targetExponent_of_full full low, shiftToExponent,
      show (exponent - (exponent - shift)).toNat = shift by omega, shiftRight_exact]
    exact congrArg (Prod.mk _) (by omega)
  have hsecond : shiftToTargetExponent Format.binary64 significand exponent .exact =
      (ExtendedMantissa.ofMantissaAndAccuracy significand .exact, exponent) := by
    have htarget := targetExponent_of_full full low 0
    rw [pow_zero, mul_one, Nat.cast_zero, sub_zero] at htarget
    rw [shiftToTargetExponent, htarget, shiftToExponent, sub_self]
    simp [HShiftRight.hShiftRight, Nat.repeat]
  have hrounded : (ExtendedMantissa.ofMantissaAndAccuracy significand .exact).roundedMantissa =
      significand := rfl
  rw [roundWithAccuracy, hfirst]
  simp only [hrounded, hsecond]
  exact dif_neg positive.ne'

/-- A whole number below 2⁵³ is a double. -/
theorem ofNat_eq_unpacked (small : significand < 2 ^ 53) :
    UnpackedFloat.ofNat Format.binary64 significand = unpacked significand 0 := by
  rcases Nat.eq_zero_or_pos significand with rfl | positive
  · rfl
  · have full := positive.ne'
    have hlog := log2_le_of_lt full small
    have htarget : Format.binary64.targetExponent (totalExponent significand 0) =
        -((52 - significand.log2 : Nat) : Int) := by
      simp only [Format.targetExponent, totalExponent, Format.mantissaBits, Format.minExponent]
      omega
    rw [UnpackedFloat.ofNat, UnpackedFloat.ofInt, UnpackedFloat.normalize,
      Int.compare_eq_gt.mpr (by omega), unpacked_of_ne_zero full]
    simp only [Int.toNat_natCast, UnpackedFloat.round, htarget, decreaseExponent, zero_sub, neg_neg]
    have hlow : (-1074 : Int) ≤ -((52 - significand.log2 : Nat) : Int) := by omega
    have hround := roundWithAccuracy_of_full (log2_shifted full small) hlow 0 (by positivity)
    rw [pow_zero, mul_one, Nat.cast_zero, sub_zero] at hround
    rw [Nat.shiftLeft_eq]
    exact hround

/-! ## Packing -/

/-- A significand of 53 bits is packed without its first bit, and the exponent with the bias. -/
theorem pack_of_full (full : significand.log2 = 52) (high : exponent ≤ 971) (positive : 0 < significand)
    {biased : Nat} (hbiased : exponent + 1075 = biased) :
    UnpackedFloat.pack Format.binary64 (.finite .positive significand exponent positive) =
      packComponents Format.binary64 .positive (BitVec.ofNat 11 biased) (BitVec.ofNat 52 significand) := by
  have hexponent : (exponent + Format.binary64.exponentBias +
      Format.binary64.mantissaBitsWithoutImplicit).toNat = biased := by
    change (exponent + 1023 + 52).toNat = biased
    omega
  rw [UnpackedFloat.pack]
  simp only [hexponent, full]
  rw [if_neg (by change ¬2048 ≤ biased + 1; omega)]
  exact if_pos rfl

theorem unpackSign_packComponents (biased : BitVec 11) (mantissa : BitVec 52) :
    unpackSign (packComponents Format.binary64 .positive biased mantissa) = 0#1 := by
  change (0#1 ++ biased ++ mantissa).extractLsb' 63 1 = 0#1
  rw [BitVec.extractLsb'_append_eq_of_le (by decide), BitVec.extractLsb'_append_eq_of_le (by decide)]
  rfl

/-- The first bit that is put in front again makes up the significand. -/
theorem toNat_first_append (least : 2 ^ 52 ≤ significand) (most : significand < 2 ^ 53) :
    (1#1 ++ BitVec.ofNat 52 significand).toNat = significand := by
  rw [BitVec.toNat_append, ← Nat.shiftLeft_add_eq_or_of_lt (BitVec.isLt _), BitVec.toNat_ofNat,
    BitVec.toNat_ofNat, Nat.shiftLeft_eq]
  omega

/-- The bits of a double with a significand of 53 bits give back its significand and its exponent. -/
theorem unpack_pack_of_full (full : significand.log2 = 52) (low : -1074 ≤ exponent)
    (high : exponent ≤ 971) (positive : 0 < significand) :
    UnpackedFloat.unpack Format.binary64
        (UnpackedFloat.pack Format.binary64 (.finite .positive significand exponent positive)) =
      .finite .positive significand exponent positive := by
  obtain ⟨least, most⟩ := (Nat.log2_eq_iff positive.ne').mp full
  obtain ⟨biased, hbiased⟩ : ∃ biased : Nat, exponent + 1075 = biased :=
    ⟨_, (Int.toNat_of_nonneg (by omega)).symm⟩
  have hfits : (BitVec.ofNat 11 biased).toNat = biased := by
    rw [BitVec.toNat_ofNat, Nat.mod_eq_of_lt (by omega)]
  -- The exponents with all bits set and with none are kept for what is not a number and for small numbers.
  have hother : ∀ reserved : BitVec 11, reserved.toNat = 0 ∨ reserved.toNat = 2047 →
      BitVec.ofNat 11 biased ≠ reserved := by
    rintro reserved hreserved rfl
    rw [hfits] at hreserved
    omega
  have hfront := toNat_first_append least most
  have hexponent : ((BitVec.ofNat 11 biased).toNat : Int) -
      (Format.binary64.exponentBias + Format.binary64.mantissaBitsWithoutImplicit : Nat) = exponent := by
    rw [hfits]
    change (biased : Int) - ((1023 + 52 : Nat) : Int) = exponent
    omega
  rw [pack_of_full full high positive hbiased, UnpackedFloat.unpack]
  simp only [unpackMantissa_packComponents, unpackExponent_packComponents, unpackSign_packComponents]
  rw [if_neg (hother (-1#11) (by decide)), if_neg (hother 0#11 (by decide))]
  congr 1

theorem unpack_pack_unpacked (small : significand < 2 ^ 53) (low : -1022 ≤ exponent)
    (high : exponent ≤ 971) :
    (Float.Model.pack (unpacked significand exponent)).unpack = unpacked significand exponent := by
  by_cases hzero : significand = 0
  · subst hzero
    rw [unpacked_zero]
    rfl
  · have hlog := log2_le_of_lt hzero small
    rw [unpacked_of_ne_zero hzero]
    exact unpack_pack_of_full (log2_shifted hzero small) (by omega) (by omega) _

/-! ## Operations -/

/-- The product of two numbers is exact when its significand is below 2⁵³. -/
theorem mul_unpacked (small : significand * other < 2 ^ 53) (low : -1022 ≤ exponent + second) :
    UnpackedFloat.mul Format.binary64 (unpacked significand exponent) (unpacked other second) =
      unpacked (significand * other) (exponent + second) := by
  by_cases hzero : significand = 0
  · subst hzero
    rw [zero_mul, unpacked_zero, unpacked_zero]
    by_cases hother : other = 0
    · subst hother
      rfl
    · rw [unpacked_of_ne_zero hother]
      rfl
  by_cases hother : other = 0
  · subst hother
    rw [mul_zero, unpacked_zero, unpacked_zero, unpacked_of_ne_zero hzero]
    rfl
  have hproduct : significand * other ≠ 0 := mul_ne_zero hzero hother
  have hlog := log2_le_of_lt hproduct small
  have hmono : significand.log2 ≤ (significand * other).log2 := by
    rw [Nat.le_log2 hproduct]
    exact (Nat.log2_self_le hzero).trans (Nat.le_mul_of_pos_right _ (Nat.pos_of_ne_zero hother))
  -- What the factors are shifted by more than the product is what rounding takes away again.
  obtain ⟨surplus, hsurplus⟩ : ∃ surplus,
      52 - significand.log2 + (52 - other.log2) = 52 - (significand * other).log2 + surplus :=
    Nat.exists_eq_add_of_le (by omega)
  have hsignificand : significand * 2 ^ (52 - significand.log2) * (other * 2 ^ (52 - other.log2)) =
      significand * other * 2 ^ (52 - (significand * other).log2) * 2 ^ surplus := by
    rw [mul_mul_mul_comm, ← pow_add, hsurplus, pow_add, ← mul_assoc]
  have hexponent : exponent - (52 - significand.log2 : Nat) + (second - (52 - other.log2 : Nat)) =
      exponent + second - (52 - (significand * other).log2 : Nat) - surplus := by
    omega
  rw [unpacked_of_ne_zero hzero, unpacked_of_ne_zero hother, unpacked_of_ne_zero hproduct]
  calc _ = roundWithAccuracy Format.binary64 .positive
        (significand * 2 ^ (52 - significand.log2) * (other * 2 ^ (52 - other.log2)))
        (exponent - (52 - significand.log2 : Nat) + (second - (52 - other.log2 : Nat))) .exact := rfl
    _ = _ := by
      rw [hsignificand, hexponent]
      exact roundWithAccuracy_of_full (log2_shifted hproduct small) (by omega) surplus _

/-- Dividing by a power of two is exact. -/
theorem div_unpacked_one (small : significand < 2 ^ 53) (low : -1021 ≤ exponent - second) :
    UnpackedFloat.div Format.binary64 (unpacked significand exponent) (unpacked 1 second) =
      unpacked significand (exponent - second) := by
  have hone : unpacked 1 second = .finite .positive (2 ^ 52) (second - 52) (by positivity) := rfl
  by_cases hzero : significand = 0
  · subst hzero
    rw [hone, unpacked_zero, unpacked_zero]
    rfl
  have hlog := log2_le_of_lt hzero small
  have hfull := log2_shifted hzero small
  generalize hshifted : significand * 2 ^ (52 - significand.log2) = shifted at hfull
  have htarget : Format.binary64.targetExponent
      (totalExponent shifted (exponent - (52 - significand.log2 : Nat)) -
        totalExponent (2 ^ 52) (second - 52)) =
      exponent - second - (52 - significand.log2 : Nat) - 1 := by
    simp only [Format.targetExponent, totalExponent, hfull, Nat.log2_two_pow, Format.mantissaBits,
      Format.minExponent]
    omega
  have hquotient : divCore Format.binary64 shifted (exponent - (52 - significand.log2 : Nat)) (2 ^ 52)
      (second - 52) =
      (shifted * 2 ^ 1, exponent - second - (52 - significand.log2 : Nat) - 1, .exact) := by
    have hshift : shifted <<< 53 = shifted * 2 ^ 1 * 2 ^ 52 := by
      rw [Nat.shiftLeft_eq]
      ring
    rw [divCore, htarget, min_eq_right (by omega),
      show (exponent - (52 - significand.log2 : Nat) - (second - 52) -
        (exponent - second - (52 - significand.log2 : Nat) - 1)).toNat = 53 by omega, hshift,
      Nat.mul_div_cancel _ (by positivity), Nat.mul_mod_left]
    rfl
  rw [hone, unpacked_of_ne_zero hzero, unpacked_of_ne_zero hzero]
  simp only [hshifted]
  rw [UnpackedFloat.div, hquotient]
  exact roundWithAccuracy_of_full hfull (by omega) 1 _

/-- The places behind the point are cut off. -/
theorem roundToInt_neg (significand places : Nat) :
    roundToInt .positive significand (-places) = (significand / 2 ^ places : Nat) := by
  have hdecrease : decreaseExponent significand (-places) 0 = (significand, (-places : Int)) := by
    rw [decreaseExponent, show (-places - 0 : Int).toNat = 0 by omega, Nat.shiftLeft_zero, Nat.cast_zero,
      sub_zero]
  have hshift : (0 - -places : Int).toNat = places := by omega
  rw [roundToInt, hdecrease]
  simp only [shiftToExponent, hshift, mantissa_shiftRight]
  rfl

/-- A whole number that is read off a double is rounded down. -/
theorem toInt_unpacked (significand places : Nat) (least most : Int) :
    (unpacked significand (-places)).toInt least most = (significand / 2 ^ places : Nat) := by
  by_cases hzero : significand = 0
  · subst hzero
    rw [unpacked_zero, Nat.zero_div]
    rfl
  · have hexponent : -places - (52 - significand.log2 : Nat) =
        -((places + (52 - significand.log2) : Nat) : Int) := by
      omega
    rw [unpacked_of_ne_zero hzero, UnpackedFloat.toInt, hexponent, roundToInt_neg, pow_add,
      Nat.mul_div_mul_right _ _ (by positivity)]

/-! ## Doubles -/

theorem isExactly_ofUInt32 (number : UInt32) : IsExactly number.toFloat number.toNat 0 := by
  have hbound := number.toNat_lt
  calc (Float.Model.pack (UnpackedFloat.ofNat Format.binary64 number.toNat)).unpack
    _ = (Float.Model.pack (unpacked number.toNat 0)).unpack := by rw [ofNat_eq_unpacked (by omega)]
    _ = unpacked number.toNat 0 := unpack_pack_unpacked (by omega) (by decide) (by decide)

theorem isExactly_ofUInt64 {number : UInt64} (small : number.toNat < 2 ^ 53) :
    IsExactly number.toFloat number.toNat 0 := by
  calc (Float.Model.pack (UnpackedFloat.ofNat Format.binary64 number.toNat)).unpack
    _ = (Float.Model.pack (unpacked number.toNat 0)).unpack := by rw [ofNat_eq_unpacked small]
    _ = unpacked number.toNat 0 := unpack_pack_unpacked small (by decide) (by decide)

variable {value factor : Float}

theorem IsExactly.mul (hvalue : IsExactly value significand exponent)
    (hfactor : IsExactly factor other second) (small : significand * other < 2 ^ 53)
    (low : -1022 ≤ exponent + second) (high : exponent + second ≤ 971) :
    IsExactly (value * factor) (significand * other) (exponent + second) := by
  calc (Float.Model.pack (UnpackedFloat.mul Format.binary64 value.toModel.unpack
        factor.toModel.unpack)).unpack
    _ = (Float.Model.pack (unpacked (significand * other) (exponent + second))).unpack := by
      rw [hvalue, hfactor, mul_unpacked small low]
    _ = unpacked (significand * other) (exponent + second) := unpack_pack_unpacked small low high

theorem IsExactly.div (hvalue : IsExactly value significand exponent)
    (hfactor : IsExactly factor 1 second) (small : significand < 2 ^ 53)
    (low : -1021 ≤ exponent - second) (high : exponent - second ≤ 971) :
    IsExactly (value / factor) significand (exponent - second) := by
  calc (Float.Model.pack (UnpackedFloat.div Format.binary64 value.toModel.unpack
        factor.toModel.unpack)).unpack
    _ = (Float.Model.pack (unpacked significand (exponent - second))).unpack := by
      rw [hvalue, hfactor, div_unpacked_one small low]
    _ = unpacked significand (exponent - second) := unpack_pack_unpacked small (by omega) high

theorem IsExactly.toNat_toUInt64 {places : Nat} (hvalue : IsExactly value significand (-places))
    (small : significand < 2 ^ 53) : value.toUInt64.toNat = significand / 2 ^ places := by
  have hquotient : significand / 2 ^ places < UInt64.size :=
    (Nat.div_le_self _ _).trans_lt (small.trans (by decide))
  calc (UInt64.ofNatClamp (value.toModel.unpack.toInt 0 (UInt64.size - 1)).toNat).toNat
    _ = (UInt64.ofNatClamp (significand / 2 ^ places)).toNat := by
      rw [hvalue, toInt_unpacked, Int.toNat_natCast]
    _ = significand / 2 ^ places := UInt64.toNat_ofNatClamp_of_lt hquotient

end Courseware.Dyadic
