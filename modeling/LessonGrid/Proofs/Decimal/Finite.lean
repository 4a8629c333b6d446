import Mathlib
import LessonGrid.Decimal.Dyadic

/-!
# Finite numbers

The highest value of the exponent's field marks the numbers that are not finite, so a number is finite
exactly when it has an exact value. Negation turns the sign around and leaves the field alone.

Main statements: `isFinite_iff_exists_dyadic` and `isFinite_neg`.
-/

set_option autoImplicit false

namespace LessonGrid

open Float.Model (UnpackedFloat Format)
open Float.Model.UnpackedFloat (Sign unpackExponent unpackExponent_packComponents)

/-- The field of the exponent among the bits of a number. -/
def exponentField (x : Float) : BitVec 11 :=
  @unpackExponent .binary64 x.toBits.toBitVec

theorem toNat_exponentField (x : Float) :
    (exponentField x).toNat = x.toBits.toNat / Nat.pow 2 52 % Nat.pow 2 11 := by
  simp [exponentField, unpackExponent, BitVec.extractLsb_toNat, Nat.shiftRight_eq_div_pow]

theorem isFinite_iff_exponentField {x : Float} :
    x.isFinite = true ↔ exponentField x ≠ 2047#11 := by
  have hunpack : x.isFinite = (UnpackedFloat.unpack .binary64 x.toBits.toBitVec).isFinite := rfl
  rw [hunpack, UnpackedFloat.unpack]
  simp only
  split
  · next h =>
    have hfield : exponentField x = 2047#11 := h
    split <;> simp [UnpackedFloat.isFinite, hfield]
  · next h =>
    have hfield : exponentField x ≠ 2047#11 := h
    split
    · split <;> exact iff_of_true rfl hfield
    · exact iff_of_true rfl hfield

/-- A number is finite exactly when it has an exact value. -/
theorem isFinite_iff_exists_dyadic {x : Float} :
    x.isFinite = true ↔ ∃ d, Dyadic.ofFloat? x = some d := by
  have hfield : exponentField x = 2047#11 ↔
      x.toBits.toNat / Nat.pow 2 52 % Nat.pow 2 11 = 2047 := by
    rw [← toNat_exponentField, ← BitVec.toNat_inj]
    rfl
  rw [isFinite_iff_exponentField, Ne, hfield]
  unfold Dyadic.ofFloat? Dyadic.ofBits?
  simp only [Dyadic.exponentBits, Dyadic.fractionBits]
  by_cases htop : x.toBits.toNat / Nat.pow 2 52 % Nat.pow 2 11 = 2047
  · simp [htop]
  · by_cases hzero : x.toBits.toNat / Nat.pow 2 52 % Nat.pow 2 11 = 0 <;> simp [htop, hzero]

/-! ## Negation -/

theorem exponentBias_binary64 : (Format.binary64.exponentBias : Int) = 1023 :=
  rfl

/-- With the bias the exponent of a number stays below the highest value of its field. -/
theorem exponent_lt_of_unpack {x : Float} {s : Sign} {m : Nat} {e : Int} {hm : 0 < m}
    (h : x.toModel.unpack = .finite s m e hm) : e + 1075 < 2047 := by
  have hunpack : x.toModel.unpack = UnpackedFloat.unpack .binary64 x.toBits.toBitVec := rfl
  have hlt : (exponentField x).toNat < 2048 := (exponentField x).isLt
  have hfield : (@unpackExponent .binary64 x.toBits.toBitVec).toNat = (exponentField x).toNat := rfl
  rw [hunpack, UnpackedFloat.unpack] at h
  simp only [exponentBias_binary64, hfield] at h
  split at h
  · split at h <;> cases h
  · next htop =>
    have hne : (exponentField x).toNat ≠ 2047 := fun heq => htop (BitVec.toNat_inj.mp heq)
    split at h
    · next hzero =>
      have hnone : (exponentField x).toNat = 0 := congrArg BitVec.toNat hzero
      split at h
      · cases h
      · injection h with _ _ he
        omega
    · injection h with _ _ he
      omega

/-- A number whose exponent fits in its field is finite once packed. -/
theorem isFinite_pack {u : UnpackedFloat} (hu : u.isFinite = true)
    (hfits : ∀ s m e hm, u = .finite s m e hm → e + 1075 < 2047) :
    (Float.ofModel (Float.Model.pack u)).isFinite = true := by
  have hfield : exponentField ⟨Float.Model.pack u⟩ =
      @unpackExponent .binary64 (UnpackedFloat.pack .binary64 u) := rfl
  rw [isFinite_iff_exponentField, hfield]
  cases u with
  | notANumber => cases hu
  | infinity s => cases hu
  | zero s => simp [UnpackedFloat.pack, UnpackedFloat.packedZero]
  | finite s m e hm =>
    have he : e + 1075 < 2047 := hfits s m e hm rfl
    simp only [UnpackedFloat.pack]
    rw [if_neg (by rw [exponentBias_binary64]; omega)]
    split
    · rw [unpackExponent_packComponents, exponentBias_binary64]
      intro heq
      have htop : (e + 1023 + 52).toNat % 2048 = 2047 := congrArg BitVec.toNat heq
      omega
    · simp

/-- The opposite of a finite number is finite. -/
theorem isFinite_neg {x : Float} (h : x.isFinite = true) : (-x).isFinite = true := by
  have hx : x.toModel.unpack.isFinite = true := h
  have hneg : -x = ⟨Float.Model.pack x.toModel.unpack.neg⟩ := rfl
  rw [hneg]
  cases hunpack : x.toModel.unpack with
  | notANumber => rw [hunpack] at hx; cases hx
  | infinity s => rw [hunpack] at hx; cases hx
  | zero s => exact isFinite_pack rfl fun _ _ _ _ heq => by cases heq
  | finite s m e hm =>
    refine isFinite_pack rfl ?_
    intro s' m' e' hm' heq
    cases heq
    exact exponent_lt_of_unpack hunpack

end LessonGrid
