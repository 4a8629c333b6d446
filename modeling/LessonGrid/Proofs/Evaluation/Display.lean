import Mathlib
import LessonGrid.Evaluation.Display
import LessonGrid.Proofs.Decimal.Rounding

/-!
# Numbers as shown

A finite number is shown as a decimal numeral. What it denotes is the exact value of the number, rounded
to the chosen number of decimal places, a half to the even neighbour; a whole number below ten thousand
millions is its own rounding and is shown without decimals. Only zero itself is shown without a sign
whatever its own sign is: a number below zero keeps the sign even where rounding leaves nothing but
zeros.

Main statements: `numberText_rounds_exact_value` and `numberText_isNegativeZero_iff`.
-/

set_option autoImplicit false

namespace LessonGrid

/-- The numeral shows `q` with a number of decimal places, or as a whole number of less than eleven
digits. It has a sign exactly below zero, and its value is the one that `q` is rounded to. -/
structure DecimalNumeral.Shows (n : DecimalNumeral) (q : ℚ) (places : ℕ) : Prop where
  wellFormed : n.WellFormed
  negative_iff : n.negative = true ↔ q < 0
  fraction_of_whole : (∃ k : ℤ, q = k) → |q| < 10 ^ 10 → n.fraction = []
  length_fraction : ¬ ((∃ k : ℤ, q = k) ∧ |q| < 10 ^ 10) → n.fraction.length = places
  roundsTo_iff : ∀ v, RoundsTo q places v ↔ v = n.value

namespace Dyadic

variable (d : Dyadic) (places : ℕ)

/-- Whether a sign is shown: zero has none. -/
def isBelowZero : Bool :=
  d.negative && d.mantissa != 0

theorem value_eq : d.value = if d.isBelowZero then -d.magnitude else d.magnitude := by
  by_cases hzero : d.mantissa = 0
  · simp [value, isBelowZero, magnitude, hzero]
  · simp [value, isBelowZero, hzero]

theorem isBelowZero_iff : d.isBelowZero = true ↔ d.value < 0 := by
  rw [value_eq]
  split
  · next h =>
    have hmantissa : d.mantissa ≠ 0 := by
      simp only [isBelowZero, Bool.and_eq_true, bne_iff_ne] at h
      exact h.2
    have hpos : 0 < d.magnitude := by
      unfold magnitude
      positivity
    exact iff_of_true h (neg_neg_of_pos hpos)
  · next h => exact iff_of_false h (not_lt.mpr d.magnitude_nonneg)

theorem abs_value : |d.value| = d.magnitude := by
  unfold value
  split
  · rw [abs_neg, abs_of_nonneg d.magnitude_nonneg]
  · rw [abs_of_nonneg d.magnitude_nonneg]

/-- The value is whole exactly when the magnitude is read as a whole number. -/
theorem value_isWhole_iff : (∃ k : ℤ, d.value = k) ↔ ∃ n : ℕ, d.integer? = some n := by
  simp only [integer?_eq_some_iff]
  constructor
  · rintro ⟨k, hk⟩
    exact ⟨k.natAbs, by rw [← abs_value, hk, Nat.cast_natAbs, Int.cast_abs]⟩
  · rintro ⟨n, hn⟩
    rw [value_eq, hn]
    split
    · exact ⟨-n, by push_cast; rfl⟩
    · exact ⟨n, by push_cast; rfl⟩

/-- The numeral that is shown. -/
def numeral : DecimalNumeral :=
  match d.integer? with
  | some n =>
    if n < wholeLimit then .ofUnits d.isBelowZero 0 n
    else .ofUnits d.isBelowZero places (d.units places)
  | none => .ofUnits d.isBelowZero places (d.units places)

theorem shown_eq_text : d.shown places = (d.numeral places).text := by
  by_cases hzero : d.mantissa = 0
  · have hinteger : d.integer? = some 0 :=
      d.integer?_eq_some_iff.mpr (by simp [magnitude, hzero])
    have hsign : d.isBelowZero = false := by simp [isBelowZero, hzero]
    have hlimit : 0 < wholeLimit := by decide
    rw [shown, numeral, hinteger, hsign]
    simp only [hzero, hlimit, if_true, DecimalNumeral.text_ofUnits]
    rfl
  · have hsign : d.isBelowZero = d.negative := by simp [isBelowZero, hzero]
    have hmark : ∀ magnitude : List Char, (if d.negative = true then '-' :: magnitude else magnitude) =
        (if d.negative = true then ['-'] else []) ++ magnitude := fun magnitude => by split <;> rfl
    rw [shown, numeral, hsign]
    simp only [hzero, if_false]
    rw [hmark]
    cases d.integer? with
    | none => rw [DecimalNumeral.text_ofUnits]
    | some n =>
      by_cases hlt : n < wholeLimit
      · simp only [hlt, if_true, DecimalNumeral.text_ofUnits]
        rfl
      · simp only [hlt, if_false, DecimalNumeral.text_ofUnits]

variable {d places}

/-- A count of units that the magnitude is rounded to shows the value, if the units are the right
ones. -/
theorem shows_ofUnits {used count : ℕ} (h : RoundsTo d.magnitude places (count / 10 ^ used))
    (hwhole : (∃ k : ℤ, d.value = k) → |d.value| < 10 ^ 10 → used = 0)
    (hother : ¬ ((∃ k : ℤ, d.value = k) ∧ |d.value| < 10 ^ 10) → used = places) :
    (DecimalNumeral.ofUnits d.isBelowZero used count).Shows d.value places := by
  have hlength : (DecimalNumeral.ofUnits d.isBelowZero used count).fraction.length = used :=
    Numeral.length_lastDigits _ _
  have hrounds : RoundsTo d.value places (DecimalNumeral.ofUnits d.isBelowZero used count).value := by
    rw [DecimalNumeral.value, DecimalNumeral.magnitude_ofUnits, value_eq]
    show RoundsTo _ _ (if d.isBelowZero = true then _ else _)
    split
    · exact h.neg
    · exact h
  exact {
    wellFormed := DecimalNumeral.wellFormed_ofUnits _ _ _
    negative_iff := d.isBelowZero_iff
    fraction_of_whole := fun hk hlt => List.eq_nil_of_length_eq_zero (hlength.trans (hwhole hk hlt))
    length_fraction := fun h => hlength.trans (hother h)
    roundsTo_iff := fun v => ⟨fun hv => hv.unique hrounds, fun hv => hv ▸ hrounds⟩ }

variable (d places)

theorem shows_numeral : (d.numeral places).Shows d.value places := by
  have hlimit : (wholeLimit : ℚ) = 10 ^ 10 := by norm_num [wholeLimit]
  unfold numeral
  cases hinteger : d.integer? with
  | none =>
    have hfraction : ¬ ∃ k : ℤ, d.value = k := fun hk => by
      obtain ⟨n, hn⟩ := d.value_isWhole_iff.mp hk
      rw [hinteger] at hn
      cases hn
    exact shows_ofUnits (d.roundsTo_units places) (fun hk => absurd hk hfraction) fun _ => rfl
  | some n =>
    have hn : d.magnitude = n := d.integer?_eq_some_iff.mp hinteger
    have hsmall : n < wholeLimit ↔ |d.value| < 10 ^ 10 := by
      rw [abs_value, hn, ← hlimit, Nat.cast_lt]
    simp only
    split
    · next hlt =>
      refine shows_ofUnits ?_ (fun _ _ => rfl) fun h => ?_
      · rw [pow_zero, div_one, hn]
        exact roundsTo_natCast n places
      · exact absurd ⟨d.value_isWhole_iff.mpr ⟨n, hinteger⟩, hsmall.mp hlt⟩ h
    · next hge =>
      exact shows_ofUnits (d.roundsTo_units places) (fun _ hlt => absurd (hsmall.mpr hlt) hge)
        fun _ => rfl

end Dyadic

/-- Every finite number has an exact value, and what is shown is a numeral of this value, rounded to the
chosen number of decimal places. -/
theorem numberText_rounds_exact_value {x : Float} (hx : x.isFinite = true) (places : ℕ) :
    ∃ q, exactValue? x = some q ∧ ∃ n : DecimalNumeral,
      numberText x places = String.ofList n.text ∧ n.Shows q places := by
  obtain ⟨d, hd⟩ := isFinite_iff_exists_dyadic.mp hx
  refine ⟨d.value, by rw [exactValue?_eq_dyadic, hd, Option.map_some], d.numeral places, ?_,
    d.shows_numeral places⟩
  rw [numberText, hd]
  exact congrArg String.ofList (d.shown_eq_text places)

/-- An eighth is shown with two decimal places: a half of a unit goes to the even neighbour. -/
theorem numberText_of_eighth : (Float.ofBits 0x3FC0000000000000).isFinite = true ∧
    numberText (Float.ofBits 0x3FC0000000000000) 2 = "0.12" ∧
    ∃ q, exactValue? (Float.ofBits 0x3FC0000000000000) = some q ∧ ∃ n : DecimalNumeral,
      numberText (Float.ofBits 0x3FC0000000000000) 2 = String.ofList n.text ∧ n.Shows q 2 := by
  have hfinite : (Float.ofBits 0x3FC0000000000000).isFinite = true := by rfl
  have htext : numberText (Float.ofBits 0x3FC0000000000000) 2 = "0.12" := by decide +kernel
  exact ⟨hfinite, htext, numberText_rounds_exact_value hfinite 2⟩

/-! ## Zeros with a sign -/

/-- What is left of a number below zero when rounding leaves nothing of it: a minus sign, and no digit
that is not a zero. -/
def IsNegativeZero (text : String) : Prop :=
  text.toList.head? = some '-' ∧ ∀ c ∈ text.toList, c.isDigit = true → c = '0'

/-- A number is shown as a zero with a sign exactly when it is below zero by half a unit of the last
decimal place or less. -/
theorem numberText_isNegativeZero_iff (x : Float) (places : ℕ) :
    IsNegativeZero (numberText x places) ↔
      ∃ q, exactValue? x = some q ∧ q < 0 ∧ |q| * 10 ^ places ≤ 1 / 2 := by
  rw [exactValue?_eq_dyadic]
  cases hd : Dyadic.ofFloat? x with
  | none =>
    have hhead : (numberText x places).toList.head? = some '#' := by
      rw [numberText, hd]
      simp only
      split <;> rfl
    simp [IsNegativeZero, hhead]
  | some d =>
    have htext : (numberText x places).toList = (d.numeral places).text := by
      rw [numberText, hd, ← d.shown_eq_text, String.toList_ofList]
    have hshows := d.shows_numeral places
    simp only [IsNegativeZero, htext, Option.map_some, Option.some.injEq, exists_eq_left']
    rw [DecimalNumeral.head?_text_eq_minus_iff hshows.wellFormed, hshows.negative_iff,
      ← DecimalNumeral.value_eq_zero_iff hshows.wellFormed, eq_comm, ← hshows.roundsTo_iff,
      roundsTo_zero_iff]

/-- A thousandth below zero is shown with two decimal places as a zero with a sign. -/
theorem numberText_shows_negativeZero : ¬ ∀ (x : Float) (places : ℕ), x.isFinite = true →
    (∀ c ∈ (numberText x places).toList, c.isDigit = true → c = '0') →
    (numberText x places).toList.head? ≠ some '-' := by
  intro h
  have htext : numberText (Float.ofBits 0xBF50624DD2F1A9FC) 2 = "-0.00" := by decide +kernel
  have hzeros : ∀ c ∈ "-0.00".toList, c.isDigit = true → c = '0' := by simp
  have hfinite : (Float.ofBits 0xBF50624DD2F1A9FC).isFinite = true := by rfl
  exact h _ 2 hfinite (htext ▸ hzeros) (htext ▸ rfl)

end LessonGrid
