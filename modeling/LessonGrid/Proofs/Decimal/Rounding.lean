import Mathlib
import LessonGrid.Decimal.Fixed
import LessonGrid.Proofs.Decimal.Exact

/-!
# Rounding to decimal places

What it means that a number is rounded to a number of decimal places: it is the nearest multiple of a
unit of that place, and of two nearest ones the even one. There is one such multiple, and the count of
units that is written is it. A decimal numeral is a sign, the digits in front of the point and those
behind it; it has the value of what is written.

Main statements: `RoundsTo.unique`, `roundHalfEven_spec`, `Dyadic.roundsTo_units`,
`DecimalNumeral.magnitude_ofUnits` and `DecimalNumeral.value_eq_zero_iff`.
-/

set_option autoImplicit false

namespace LessonGrid

/-! ## The nearest multiple of a unit -/

/-- The whole number is nearest to `q`; if another one is as near, it is even. -/
def IsNearest (q : ℚ) (k : ℤ) : Prop :=
  |q - k| < 1 / 2 ∨ |q - k| = 1 / 2 ∧ Even k

/-- Rounding `q` to a number of decimal places gives `v`. -/
def RoundsTo (q : ℚ) (places : ℕ) (v : ℚ) : Prop :=
  ∃ k : ℤ, v = k / 10 ^ places ∧ IsNearest (q * 10 ^ places) k

theorem eq_of_abs_cast_sub_lt_one {k l : ℤ} (h : |((k - l : ℤ) : ℚ)| < 1) : k = l := by
  have hlt : |k - l| < 1 := by exact_mod_cast h
  exact sub_eq_zero.mp (Int.abs_lt_one_iff.mp hlt)

theorem IsNearest.unique {q : ℚ} {k l : ℤ} (hk : IsNearest q k) (hl : IsNearest q l) : k = l := by
  have htriangle : |((k - l : ℤ) : ℚ)| ≤ |q - k| + |q - l| := by
    have hdiff : ((k - l : ℤ) : ℚ) = (q - l) - (q - k) := by
      push_cast
      ring
    rw [hdiff, add_comm]
    exact abs_sub _ _
  rcases hk with hk | ⟨hk, hkeven⟩
  · refine eq_of_abs_cast_sub_lt_one ?_
    rcases hl with hl | ⟨hl, _⟩ <;> linarith
  · rcases hl with hl | ⟨hl, hleven⟩
    · exact eq_of_abs_cast_sub_lt_one (by linarith)
    · -- Both are half a unit away, so they are one apart at most, and both are even.
      have hle : |((k - l : ℤ) : ℚ)| ≤ 1 := by linarith
      have hone : |k - l| ≤ 1 := by exact_mod_cast hle
      obtain ⟨i, rfl⟩ := hkeven
      obtain ⟨j, rfl⟩ := hleven
      rw [abs_le] at hone
      omega

theorem RoundsTo.unique {q v w : ℚ} {places : ℕ} (hv : RoundsTo q places v)
    (hw : RoundsTo q places w) : v = w := by
  obtain ⟨k, rfl, hk⟩ := hv
  obtain ⟨l, rfl, hl⟩ := hw
  rw [hk.unique hl]

/-- Rounding is the same on both sides of zero. -/
theorem RoundsTo.neg {q v : ℚ} {places : ℕ} (h : RoundsTo q places v) : RoundsTo (-q) places (-v) := by
  obtain ⟨k, rfl, hk⟩ := h
  refine ⟨-k, by push_cast; ring, ?_⟩
  have hdist : |-q * 10 ^ places - ((-k : ℤ) : ℚ)| = |q * 10 ^ places - k| := by
    rw [← abs_neg]
    congr 1
    push_cast
    ring
  unfold IsNearest at hk ⊢
  rwa [hdist, even_neg]

theorem roundsTo_natCast (n places : ℕ) : RoundsTo n places n := by
  refine ⟨n * 10 ^ places, by push_cast; field_simp, .inl ?_⟩
  push_cast
  norm_num

/-- The numbers that are rounded to zero are those within half a unit of it, for zero is even. -/
theorem roundsTo_zero_iff {q : ℚ} {places : ℕ} :
    RoundsTo q places 0 ↔ |q| * 10 ^ places ≤ 1 / 2 := by
  have hpow : (0 : ℚ) < 10 ^ places := by positivity
  have hnearest : IsNearest (q * 10 ^ places) 0 ↔ |q| * 10 ^ places ≤ 1 / 2 := by
    rw [IsNearest, Int.cast_zero, sub_zero, abs_mul, abs_of_pos hpow, le_iff_lt_or_eq]
    simp
  rw [← hnearest]
  constructor
  · rintro ⟨k, hk, hkq⟩
    have hzero : k = 0 := by
      rw [eq_div_iff hpow.ne', zero_mul] at hk
      exact_mod_cast hk.symm
    rwa [hzero] at hkq
  · intro h
    exact ⟨0, by simp, h⟩

section Quotient

variable (num : ℕ) {den : ℕ} (hden : 0 < den)

include hden

theorem cast_div_eq : (num : ℚ) / den = (num / den : ℕ) + (num % den : ℕ) / den := by
  have hpos : (den : ℚ) ≠ 0 := by exact_mod_cast hden.ne'
  rw [div_eq_iff hpos, add_mul, div_mul_cancel₀ _ hpos]
  exact_mod_cast (Nat.div_add_mod' num den).symm

/-- How far a quotient lies above the whole number below it. -/
theorem abs_sub_div : |(num : ℚ) / den - (num / den : ℕ)| = (num % den : ℕ) / den := by
  rw [cast_div_eq num hden, add_sub_cancel_left, abs_of_nonneg (by positivity)]

/-- How far a quotient lies below the next whole number. -/
theorem abs_sub_succ_div :
    |(num : ℚ) / den - ((num / den + 1 : ℕ) : ℚ)| = (den - (num % den : ℕ)) / den := by
  have hpos : (0 : ℚ) < den := by exact_mod_cast hden
  have hrest : ((num % den : ℕ) : ℚ) < den := by exact_mod_cast Nat.mod_lt num hden
  have hgap : (num : ℚ) / den - ((num / den + 1 : ℕ) : ℚ) = -((den - (num % den : ℕ)) / den) := by
    rw [cast_div_eq num hden, sub_div, div_self hpos.ne']
    push_cast
    ring
  rw [hgap, abs_neg, abs_of_nonneg (div_nonneg (by linarith) hpos.le)]

/-- The quotient is rounded to the nearest whole number, and to the even one of two. -/
theorem roundHalfEven_spec : IsNearest (num / den) (roundHalfEven num den) := by
  have hpos : (0 : ℚ) < den := by exact_mod_cast hden
  unfold roundHalfEven IsNearest
  extract_lets floor rest
  split
  · next h =>
    rw [Int.cast_natCast, abs_sub_div num hden, div_lt_iff₀ hpos, div_eq_iff hpos.ne']
    refine h.imp (fun hlt => ?_) fun ⟨heq, heven⟩ => ⟨?_, ?_⟩
    · have hq : (2 : ℚ) * rest < den := by exact_mod_cast hlt
      linarith
    · have hq : (2 : ℚ) * rest = den := by exact_mod_cast heq
      linarith
    · exact_mod_cast Nat.even_iff.mpr heven
  · next h =>
    rw [not_or, not_and_or, Nat.not_lt] at h
    rw [Int.cast_natCast, abs_sub_succ_div num hden, div_lt_iff₀ hpos, div_eq_iff hpos.ne']
    rcases h.1.lt_or_eq with hlt | heq
    · have hq : (den : ℚ) < 2 * rest := by exact_mod_cast hlt
      exact .inl (by linarith)
    · have hq : (den : ℚ) = 2 * rest := by exact_mod_cast heq
      have heven : Even (floor + 1) := Nat.even_iff.mpr (by omega)
      exact .inr ⟨by linarith, by exact_mod_cast heven⟩

end Quotient

/-! ## Exact values -/

namespace Dyadic

variable (d : Dyadic)

theorem ratio_eq_magnitude : (d.ratio.1 : ℚ) / d.ratio.2 = d.magnitude := by
  obtain ⟨_, m, e⟩ := d
  cases e with
  | ofNat e => simp [ratio, magnitude]
  | negSucc e => simp [ratio, magnitude, div_eq_mul_inv, zpow_negSucc]

theorem integer?_eq_some_iff {n : ℕ} : d.integer? = some n ↔ d.magnitude = n := by
  obtain ⟨_, m, e⟩ := d
  cases e with
  | ofNat e =>
    simp only [integer?, magnitude, Option.some.injEq, Int.ofNat_eq_natCast, zpow_natCast]
    exact_mod_cast Iff.rfl
  | negSucc e =>
    have hpow : (2 : ℚ) ^ (e + 1) ≠ 0 := by positivity
    have hmag : (⟨‹Bool›, m, .negSucc e⟩ : Dyadic).magnitude = n ↔ m = n * 2 ^ (e + 1) := by
      rw [magnitude, zpow_negSucc, ← div_eq_mul_inv, div_eq_iff hpow]
      exact_mod_cast Iff.rfl
    rw [hmag, integer?]
    simp only [Nat.pow_eq]
    constructor
    · intro h
      split at h
      · next hdvd =>
        cases h
        exact (Nat.div_mul_cancel (Nat.dvd_of_mod_eq_zero hdvd)).symm
      · cases h
    · rintro rfl
      rw [if_pos (Nat.mul_mod_left n _), Nat.mul_div_cancel n (Nat.two_pow_pos _)]

theorem magnitude_nonneg : 0 ≤ d.magnitude := by
  unfold magnitude
  positivity

/-- The count of units is the magnitude in units, rounded. -/
theorem isNearest_units (places : ℕ) :
    IsNearest (d.magnitude * 10 ^ places) (d.units places) := by
  have hspec := roundHalfEven_spec (d.ratio.1 * Nat.pow 10 places) d.ratio_den_pos
  have hq : ((d.ratio.1 * Nat.pow 10 places : ℕ) : ℚ) / d.ratio.2 = d.magnitude * 10 ^ places := by
    rw [← ratio_eq_magnitude]
    push_cast
    simp
    ring
  rwa [hq] at hspec

theorem roundsTo_units (places : ℕ) :
    RoundsTo d.magnitude places (d.units places / 10 ^ places) :=
  ⟨d.units places, rfl, d.isNearest_units places⟩

end Dyadic

/-! ## Numerals -/

/-- A decimal number as it is written: a sign or none, the digits in front of the point and those
behind it. -/
structure DecimalNumeral where
  negative : Bool
  whole : List Char
  fraction : List Char
  deriving DecidableEq, Repr

namespace DecimalNumeral

/-- Without a fraction there is no point. -/
def text (n : DecimalNumeral) : List Char :=
  (if n.negative then ['-'] else []) ++ n.whole ++
    if n.fraction = [] then [] else '.' :: n.fraction

/-- The number that the digits denote. -/
def magnitude (n : DecimalNumeral) : ℚ :=
  Numeral.value n.whole + Numeral.value n.fraction / 10 ^ n.fraction.length

/-- The number that sign and digits denote. -/
def value (n : DecimalNumeral) : ℚ :=
  if n.negative then -n.magnitude else n.magnitude

/-- All characters but the sign and the point are digits, there are some in front of the point, and the
first of these is a zero only if it is the only one. -/
structure WellFormed (n : DecimalNumeral) : Prop where
  whole_isDigit : ∀ c ∈ n.whole, c.isDigit = true
  fraction_isDigit : ∀ c ∈ n.fraction, c.isDigit = true
  whole_ne_nil : n.whole ≠ []
  no_leading_zero : n.whole.head? = some '0' → n.whole = ['0']

/-- A count of units with its sign. -/
def ofUnits (negative : Bool) (places count : ℕ) : DecimalNumeral :=
  ⟨negative, Numeral.digits (count / Nat.pow 10 places),
    Numeral.lastDigits places (count % Nat.pow 10 places)⟩

variable (negative : Bool) (places count : ℕ)

theorem text_ofUnits : (ofUnits negative places count).text =
    (if negative then ['-'] else []) ++ fixedText places count := by
  rw [text, ofUnits, fixedText, List.append_assoc]
  by_cases hplaces : places = 0
  · subst hplaces
    simp [Numeral.lastDigits]
  · have hfraction : Numeral.lastDigits places (count % Nat.pow 10 places) ≠ [] := fun h =>
      hplaces (by simpa using congrArg List.length h)
    rw [if_neg hfraction, if_neg hplaces]

theorem magnitude_ofUnits : (ofUnits negative places count).magnitude = count / 10 ^ places := by
  have hpow : (10 : ℚ) ^ places ≠ 0 := by positivity
  have hsplit : (count : ℚ) = (count / 10 ^ places : ℕ) * 10 ^ places + (count % 10 ^ places : ℕ) := by
    exact_mod_cast (Nat.div_add_mod' count (10 ^ places)).symm
  rw [magnitude, ofUnits, Numeral.value_digits, Numeral.value_lastDigits, Numeral.length_lastDigits,
    Nat.mod_mod, eq_div_iff hpow, add_mul, div_mul_cancel₀ _ hpow]
  exact hsplit.symm

theorem wellFormed_ofUnits : (ofUnits negative places count).WellFormed where
  whole_isDigit _ := Numeral.isDigit_of_mem_digits
  fraction_isDigit _ := Numeral.isDigit_of_mem_lastDigits
  whole_ne_nil := Numeral.digits_ne_nil _
  no_leading_zero := Numeral.digits_eq_of_head?

section WellFormed

variable {n : DecimalNumeral} (h : n.WellFormed)

include h

theorem head?_text_eq_minus_iff : n.text.head? = some '-' ↔ n.negative = true := by
  obtain ⟨c, cs, hwhole⟩ := List.exists_cons_of_ne_nil h.whole_ne_nil
  have hdigit : c.isDigit = true := h.whole_isDigit c (by simp [hwhole])
  have hminus : c ≠ '-' := by
    rintro rfl
    cases hdigit
  cases hsign : n.negative <;> simp [text, hsign, hwhole, hminus]

/-- The digits of a numeral are those in front of the point and those behind it. -/
theorem zeros_of_text_iff : (∀ c ∈ n.text, c.isDigit = true → c = '0') ↔
    (∀ c ∈ n.whole, c = '0') ∧ ∀ c ∈ n.fraction, c = '0' := by
  have hsign : ∀ c ∈ (if n.negative then ['-'] else []), c.isDigit = true → c = '0' := by
    split <;> simp
  have hpoint : (∀ c ∈ (if n.fraction = [] then [] else '.' :: n.fraction),
      c.isDigit = true → c = '0') ↔ ∀ c ∈ n.fraction, c.isDigit = true → c = '0' := by
    split
    · next hnil => simp [hnil]
    · simp
  have hdigits : ∀ cs : List Char, (∀ c ∈ cs, c.isDigit = true) →
      ((∀ c ∈ cs, c.isDigit = true → c = '0') ↔ ∀ c ∈ cs, c = '0') := fun cs hcs =>
    forall₂_congr fun c hc => imp_iff_right (hcs c hc)
  rw [text, List.forall_mem_append, List.forall_mem_append, hpoint, hdigits _ h.whole_isDigit,
    hdigits _ h.fraction_isDigit]
  exact and_congr_left fun _ => and_iff_right hsign

/-- A numeral denotes zero exactly when all its digits are zeros. -/
theorem value_eq_zero_iff : n.value = 0 ↔ ∀ c ∈ n.text, c.isDigit = true → c = '0' := by
  have hmagnitude : n.value = 0 ↔ n.magnitude = 0 := by
    rw [value]
    split <;> simp
  have hparts : n.magnitude = 0 ↔ Numeral.value n.whole = 0 ∧ Numeral.value n.fraction = 0 := by
    rw [magnitude, add_eq_zero_iff_of_nonneg (by positivity) (by positivity)]
    simp
  rw [hmagnitude, hparts, zeros_of_text_iff h, Numeral.value_eq_zero_iff h.whole_isDigit,
    Numeral.value_eq_zero_iff h.fraction_isDigit]

end WellFormed

end DecimalNumeral

end LessonGrid
