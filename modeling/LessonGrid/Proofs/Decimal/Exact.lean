import Mathlib
import LessonGrid.Proofs.Decimal.Finite

/-!
# Exact values

The exact value of a number is a rational, read off its sign, mantissa and exponent. The bits give the
same value as the unpacked form does, and the numbers below `2 ^ 53` are stored exactly: rounding moves
only zeros out of their mantissa.

Main statements: `exactValue?_eq_dyadic`, `isFinite_iff_exactValue?` and `exactValue?_ofNat`.
-/

set_option autoImplicit false

namespace LessonGrid

open Float.Model (UnpackedFloat Format totalExponent)
open Float.Model.UnpackedFloat

/-- The exact value of an unpacked number: the mantissa with its sign, times a power of two. Infinities
and what is no number have none. -/
def unpackedValue? : UnpackedFloat → Option ℚ
  | .finite s m e _ => some (s.apply m * 2 ^ e)
  | .zero _ => some 0
  | .infinity _ => none
  | .notANumber => none

/-- The exact value of a number, if it is finite. -/
def exactValue? (x : Float) : Option ℚ :=
  unpackedValue? x.toModel.unpack

/-- The magnitude that mantissa and exponent stand for. -/
def Dyadic.magnitude (d : Dyadic) : ℚ :=
  d.mantissa * 2 ^ d.exponent

/-- The value that sign, mantissa and exponent stand for. -/
def Dyadic.value (d : Dyadic) : ℚ :=
  if d.negative then -d.magnitude else d.magnitude

theorem isFinite_iff_exactValue? {x : Float} : x.isFinite = true ↔ ∃ q, exactValue? x = some q := by
  have hunpack : x.isFinite = x.toModel.unpack.isFinite := rfl
  rw [hunpack, exactValue?]
  cases x.toModel.unpack <;> simp [UnpackedFloat.isFinite, unpackedValue?]

/-! ## The bits -/

theorem toNat_mantissaField (x : Float) :
    (@unpackMantissa .binary64 x.toBits.toBitVec).toNat = x.toBits.toNat % Nat.pow 2 52 := by
  simp [unpackMantissa, BitVec.extractLsb_toNat]

theorem toNat_signField (x : Float) :
    (@unpackSign .binary64 x.toBits.toBitVec).toNat = x.toBits.toNat / Nat.pow 2 63 := by
  have hlt : x.toBits.toNat < 18446744073709551616 := x.toBits.toNat_lt
  simp only [unpackSign, BitVec.extractLsb, BitVec.toNat_cast, BitVec.extractLsb'_toNat,
    Nat.shiftRight_eq_div_pow, UInt64.toNat_toBitVec]
  norm_num
  omega

/-- The sign is the highest bit. -/
theorem signField_eq_zero_iff (x : Float) :
    @unpackSign .binary64 x.toBits.toBitVec = 0#1 ↔ ¬ Nat.pow 2 63 ≤ x.toBits.toNat := by
  rw [← BitVec.toNat_inj, toNat_signField, BitVec.toNat_ofNat, Nat.zero_mod,
    Nat.div_eq_zero_iff_lt (Nat.two_pow_pos 63), Nat.not_le]

/-- A mantissa with the sign among the bits has the value that the bits give it. -/
theorem unpackedValue?_finite (x : Float) {m : Nat} (e : Int) (hm : 0 < m) :
    unpackedValue? (.finite (Sign.ofBitVec (@unpackSign .binary64 x.toBits.toBitVec)) m e hm) =
      some (Dyadic.value ⟨Nat.pow 2 63 ≤ x.toBits.toNat, m, e⟩) := by
  unfold unpackedValue? Dyadic.value Dyadic.magnitude Sign.ofBitVec
  by_cases hsign : Nat.pow 2 63 ≤ x.toBits.toNat
  · have hone : ¬ @unpackSign .binary64 x.toBits.toBitVec = 0#1 := fun h =>
      (signField_eq_zero_iff x).mp h hsign
    simp [hsign, hone, Sign.apply]
  · have hzero : @unpackSign .binary64 x.toBits.toBitVec = 0#1 := (signField_eq_zero_iff x).mpr hsign
    simp [hsign, hzero, Sign.apply]

/-- The leading bit of a mantissa stands in front of the stored ones. -/
theorem toNat_leadingBit (fraction : BitVec 52) :
    (1#1 ++ fraction).toNat = Nat.pow 2 52 + fraction.toNat := by
  rw [BitVec.toNat_append, ← Nat.shiftLeft_add_eq_or_of_lt fraction.isLt, Nat.shiftLeft_eq]
  simp

/-- The exact value is the one that the bits stand for. -/
theorem exactValue?_eq_dyadic (x : Float) :
    exactValue? x = (Dyadic.ofFloat? x).map Dyadic.value := by
  have hunpack : x.toModel.unpack = UnpackedFloat.unpack .binary64 x.toBits.toBitVec := rfl
  have hexponent : (@unpackExponent .binary64 x.toBits.toBitVec).toNat =
      x.toBits.toNat / Nat.pow 2 52 % Nat.pow 2 11 := toNat_exponentField x
  rw [exactValue?, hunpack, UnpackedFloat.unpack]
  unfold Dyadic.ofFloat? Dyadic.ofBits?
  simp only [exponentBias_binary64, Dyadic.exponentBits, Dyadic.fractionBits, ← hexponent,
    ← toNat_mantissaField]
  split
  · next htop =>
    have hfield : (@unpackExponent .binary64 x.toBits.toBitVec).toNat = 2047 := by rw [htop]; rfl
    rw [if_pos hfield]
    split <;> rfl
  · next htop =>
    have hfield : (@unpackExponent .binary64 x.toBits.toBitVec).toNat ≠ 2047 := fun h =>
      htop (BitVec.toNat_inj.mp (h.trans rfl))
    rw [if_neg hfield]
    split
    · next hzero =>
      have hlow : (@unpackExponent .binary64 x.toBits.toBitVec).toNat = 0 := by rw [hzero]; rfl
      rw [if_pos hlow, hlow]
      split
      · next hnone =>
        rw [hnone]
        simp [unpackedValue?, Dyadic.value, Dyadic.magnitude]
      · exact unpackedValue?_finite x (-1074) _
    · next hnonzero =>
      have hlow : (@unpackExponent .binary64 x.toBits.toBitVec).toNat ≠ 0 := fun h =>
        hnonzero (BitVec.toNat_inj.mp (h.trans rfl))
      rw [if_neg hlow, unpackedValue?_finite, Option.map_some, toNat_leadingBit]
      rfl

/-! ## Whole numbers -/

/-- Zeros are moved out of a mantissa without a trace. -/
theorem repeat_shiftRightOne (m k : Nat) :
    Nat.repeat ExtendedMantissa.shiftRightOne k ⟨m * 2 ^ k, false, false⟩ = ⟨m, false, false⟩ := by
  induction k generalizing m with
  | zero => simp [Nat.repeat]
  | succ k ih =>
    have hdouble : m * 2 ^ (k + 1) = 2 * m * 2 ^ k := by ring
    rw [Nat.repeat, hdouble, ih]
    simp [ExtendedMantissa.shiftRightOne]

theorem log2_mul_two_pow {m : Nat} (hm : 0 < m) (k : Nat) : (m * 2 ^ k).log2 = m.log2 + k := by
  obtain ⟨hlow, hhigh⟩ := (Nat.log2_eq_iff (Nat.ne_of_gt hm)).mp rfl
  rw [Nat.log2_eq_iff (Nat.ne_of_gt (by positivity)), Nat.add_right_comm, Nat.pow_add, Nat.pow_add]
  exact ⟨Nat.mul_le_mul_right _ hlow, Nat.mul_lt_mul_of_pos_right hhigh (by positivity)⟩

variable (s : Sign) {m : Nat} {e : Int}

/-- A mantissa that has its full length but for zeros behind it is moved to its full length. -/
theorem shiftToTargetExponent_of_log2 (hlog : m.log2 = 52) (k : Nat) (he : -1074 ≤ e) :
    shiftToTargetExponent .binary64 (m * 2 ^ k) (e - k) .exact = (⟨m, false, false⟩, e) := by
  have hm : 0 < m := Nat.pos_of_ne_zero (by rintro rfl; simp at hlog)
  have hmin : Format.minExponent .binary64 = -1074 := rfl
  have hbits : Format.mantissaBits .binary64 = 53 := rfl
  have htarget : Format.targetExponent .binary64 (totalExponent (m * 2 ^ k) (e - k)) = e := by
    rw [Format.targetExponent, totalExponent, log2_mul_two_pow hm, hlog, hmin, hbits]
    push_cast
    omega
  have hshift : (e - (e - k)).toNat = k := by omega
  have hrepeat : (⟨m * 2 ^ k, false, false⟩ : ExtendedMantissa) >>> k = ⟨m, false, false⟩ :=
    repeat_shiftRightOne m k
  simp only [shiftToTargetExponent, htarget, shiftToExponent, hshift,
    ExtendedMantissa.ofMantissaAndAccuracy, hrepeat, Int.sub_add_cancel]

/-- Rounding such a mantissa loses nothing. -/
theorem roundWithAccuracy_of_log2 (hm : 0 < m) (hlog : m.log2 = 52) (k : Nat) (he : -1074 ≤ e) :
    roundWithAccuracy .binary64 s (m * 2 ^ k) (e - k) .exact = .finite s m e hm := by
  have hagain : shiftToTargetExponent .binary64 m e .exact = (⟨m, false, false⟩, e) := by
    simpa using shiftToTargetExponent_of_log2 hlog 0 he
  rw [roundWithAccuracy, shiftToTargetExponent_of_log2 hlog k he]
  simp [ExtendedMantissa.roundedMantissa, ExtendedMantissa.accuracy, Accuracy.roundToNearestEven,
    hagain, Nat.ne_of_gt hm]

/-- A mantissa of full length is kept when it is packed. -/
theorem unpack_pack_of_log2 (hm : 0 < m) (hlog : m.log2 = 52) (hlow : -1074 ≤ e)
    (hhigh : e + 1075 < 2047) :
    (Float.Model.pack (.finite s m e hm)).unpack = .finite s m e hm := by
  obtain ⟨hmlow, hmhigh⟩ := (Nat.log2_eq_iff (Nat.ne_of_gt hm)).mp hlog
  have hbits : Format.mantissaBits .binary64 = 53 := rfl
  have hexponent : (BitVec.ofNat 11 (e + 1023 + (52 : Nat)).toNat).toNat = (e + 1075).toNat := by
    rw [BitVec.toNat_ofNat, Nat.mod_eq_of_lt (by omega)]
    omega
  have htop : ¬ BitVec.ofNat 11 (e + 1023 + (52 : Nat)).toNat = -1#11 := fun h => by
    have hall : (e + 1075).toNat = 2047 := hexponent.symm.trans (congrArg BitVec.toNat h)
    omega
  have hzero : ¬ BitVec.ofNat 11 (e + 1023 + (52 : Nat)).toNat = 0#11 := fun h => by
    have hnone : (e + 1075).toNat = 0 := hexponent.symm.trans (congrArg BitVec.toNat h)
    omega
  have hmantissa : (1#1 ++ BitVec.ofNat 52 m).toNat = m := by
    rw [toNat_leadingBit, BitVec.toNat_ofNat]
    norm_num at hmlow hmhigh ⊢
    omega
  have hsign : Sign.ofBitVec s.toBitVec = s := by cases s <;> rfl
  have hpack : (Float.Model.pack (.finite s m e hm)).unpack =
      UnpackedFloat.unpack .binary64 (UnpackedFloat.pack .binary64 (.finite s m e hm)) := rfl
  rw [hpack]
  simp only [UnpackedFloat.pack]
  rw [if_neg (by rw [exponentBias_binary64]; omega), if_pos (by rw [hlog, hbits])]
  simp only [UnpackedFloat.unpack, unpackExponent_packComponents, unpackMantissa_packComponents,
    unpackSign_packComponents, exponentBias_binary64]
  rw [if_neg htop, if_neg hzero]
  simp only [hexponent, hmantissa, hsign, finite.injEq, true_and]
  omega

/-- Zeros fill the mantissa of a whole number below `2 ^ 53`. -/
theorem log2_filled {n : Nat} (hn : 0 < n) (hlt : n < 2 ^ 53) : (n * 2 ^ (52 - n.log2)).log2 = 52 := by
  have hlog : n.log2 < 53 := (Nat.log2_lt (Nat.ne_of_gt hn)).mpr hlt
  rw [log2_mul_two_pow hn]
  omega

/-- A whole number below `2 ^ 53` is rounded to itself. -/
theorem round_natural {n : Nat} (hn : 0 < n) (hlt : n < 2 ^ 53) :
    UnpackedFloat.round .binary64 s n 0 =
      .finite s (n * 2 ^ (52 - n.log2)) (n.log2 - 52) (Nat.mul_pos hn (Nat.two_pow_pos _)) := by
  have hlog : n.log2 < 53 := (Nat.log2_lt (Nat.ne_of_gt hn)).mpr hlt
  have hfull : (n * 2 ^ (52 - n.log2)).log2 = 52 := log2_filled hn hlt
  have hmin : Format.minExponent .binary64 = -1074 := rfl
  have hbits : Format.mantissaBits .binary64 = 53 := rfl
  have htarget : Format.targetExponent .binary64 (totalExponent n 0) = n.log2 - 52 := by
    rw [Format.targetExponent, totalExponent, hmin, hbits]
    push_cast
    omega
  have hshift : (0 - ((n.log2 : Int) - 52)).toNat = 52 - n.log2 := by omega
  have hexponent : (0 : Int) - (52 - n.log2 : Nat) = n.log2 - 52 := by omega
  rw [UnpackedFloat.round, htarget, decreaseExponent]
  simp only [hshift, hexponent, Nat.shiftLeft_eq]
  simpa using roundWithAccuracy_of_log2 s (Nat.mul_pos hn (Nat.two_pow_pos _)) hfull 0
    (show (-1074 : Int) ≤ n.log2 - 52 by omega)

theorem unpack_toFloat {n : Nat} (hn : 0 < n) (hlt : n < 2 ^ 53) :
    n.toUInt64.toFloat.toModel.unpack =
      .finite .positive (n * 2 ^ (52 - n.log2)) (n.log2 - 52) (Nat.mul_pos hn (Nat.two_pow_pos _)) := by
  have hlog : n.log2 < 53 := (Nat.log2_lt (Nat.ne_of_gt hn)).mpr hlt
  have hfull : (n * 2 ^ (52 - n.log2)).log2 = 52 := log2_filled hn hlt
  have hword : n.toUInt64.toNat = n := by
    rw [Nat.toUInt64_eq, UInt64.toNat_ofNat', Nat.mod_eq_of_lt (by omega)]
  have hconvert : n.toUInt64.toFloat.toModel =
      Float.Model.pack (UnpackedFloat.normalize .binary64 n.toUInt64.toNat 0 .positive) := rfl
  rw [hconvert, hword, UnpackedFloat.normalize, Int.compare_eq_gt.mpr (by omega)]
  simp only [Int.toNat_natCast, round_natural .positive hn hlt]
  exact unpack_pack_of_log2 .positive _ hfull (by omega) (by omega)

/-- Literals are converted by way of a word, which is then multiplied by one. -/
theorem ofNat_eq_mul {n : Nat} (hlt : n < 2 ^ 53) :
    Float.ofNat n = n.toUInt64.toFloat * Float.ofBits 4607182418800017408 := by
  have hscientific : Float.ofNat n = Float.ofScientific n false 0 := rfl
  rw [hscientific, Float.ofScientific, dif_pos ⟨hlt, by decide⟩]
  rfl

/-- The numbers below `2 ^ 53` are stored exactly. -/
theorem exactValue?_ofNat {n : Nat} (hlt : n < 2 ^ 53) : exactValue? (Float.ofNat n) = some (n : ℚ) := by
  rcases Nat.eq_zero_or_pos n with rfl | hn
  · rfl
  have hlog : n.log2 < 53 := (Nat.log2_lt (Nat.ne_of_gt hn)).mpr hlt
  have hfull : (n * 2 ^ (52 - n.log2)).log2 = 52 := log2_filled hn hlt
  have hone : (Float.ofBits 4607182418800017408).toModel.unpack =
      .finite .positive (2 ^ 52) (-52) (Nat.two_pow_pos 52) := by rfl
  have hmul : (Float.ofNat n).toModel = Float.Model.pack (UnpackedFloat.mul .binary64
      n.toUInt64.toFloat.toModel.unpack (Float.ofBits 4607182418800017408).toModel.unpack) := by
    rw [ofNat_eq_mul hlt]
    rfl
  have hexact : UnpackedFloat.mul .binary64 n.toUInt64.toFloat.toModel.unpack
      (Float.ofBits 4607182418800017408).toModel.unpack =
      .finite .positive (n * 2 ^ (52 - n.log2)) (n.log2 - 52) (Nat.mul_pos hn (Nat.two_pow_pos _)) := by
    rw [unpack_toFloat hn hlt, hone]
    exact roundWithAccuracy_of_log2 .positive _ hfull 52 (by omega)
  have hscale : (2 : ℚ) ^ (52 - n.log2) * 2 ^ ((n.log2 : Int) - 52) = 1 := by
    rw [← zpow_natCast, ← zpow_add₀ (by norm_num), Nat.cast_sub (Nat.le_of_lt_succ hlog)]
    simp
  rw [exactValue?, hmul, hexact, unpack_pack_of_log2 .positive _ hfull (by omega) (by omega)]
  simp only [unpackedValue?, Sign.apply]
  push_cast
  rw [mul_assoc, hscale, mul_one]

theorem isFinite_ofNat {n : Nat} (hlt : n < 2 ^ 53) : (Float.ofNat n).isFinite = true :=
  isFinite_iff_exactValue?.mpr ⟨n, exactValue?_ofNat hlt⟩

end LessonGrid
