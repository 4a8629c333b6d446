/-!
# Decimal numerals

A numeral is a non-empty text of ASCII digits. `digits` writes a natural number as its shortest
numeral, `value` reads the positional value of any numeral, and `natural?` is `value` on numerals
alone. `lastDigits` writes a number with a fixed number of digits. Main statements: `value_digits` and
`value_lastDigits` (what is written reads back), and `digits_value` (what is read without a leading zero
is written the same way).
-/

set_option autoImplicit false

namespace LessonGrid.Numeral

/-- The positional value of a text of digits, most significant first; nothing stands for zero. -/
def value (cs : List Char) : Nat :=
  Nat.ofDigitChars 10 cs 0

/-- The numeral of a number, without superfluous leading zeros. -/
def digits (n : Nat) : List Char :=
  Nat.toDigits 10 n

/-- The value of a numeral; a text that is empty or holds another character is none. -/
def natural? (cs : List Char) : Option Nat :=
  if cs ≠ [] ∧ cs.all Char.isDigit then some (value cs) else none

/-- The value of a numeral that does not start with zero, so of a positive number written in its
shortest form. -/
def positive? : List Char → Option Nat
  | [] => none
  | c :: cs => if c = '0' then none else natural? (c :: cs)

/-- The last decimal digits of a number, exactly `width` of them; the number is cut in halves, so that
long ones are written quickly. -/
def lastDigits (width n : Nat) : List Char :=
  if width = 0 then []
  else if width = 1 then [Nat.digitChar (n % 10)]
  else
    let low := width / 2
    lastDigits (width - low) (n / Nat.pow 10 low) ++ lastDigits low (n % Nat.pow 10 low)
termination_by width

/-- What is written reads back. -/
@[simp] theorem value_digits (n : Nat) : value (digits n) = n :=
  Nat.ofDigitChars_toDigits (by decide) (by decide)

theorem isDigit_of_mem_digits {n : Nat} {c : Char} (h : c ∈ digits n) : c.isDigit = true :=
  Nat.isDigit_of_mem_toDigits (by decide) (by decide) h

theorem digits_ne_nil (n : Nat) : digits n ≠ [] := by
  simp [digits]

@[simp] theorem length_lastDigits (width n : Nat) : (lastDigits width n).length = width := by
  fun_induction lastDigits width n with
  | case1 => rfl
  | case2 => rfl
  | case3 width n h0 h1 low ih₁ ih₂ => rw [List.length_append, ih₁, ih₂]; omega

@[simp] theorem natural?_digits (n : Nat) : natural? (digits n) = some n := by
  have h : (digits n).all Char.isDigit = true :=
    List.all_eq_true.mpr fun _ hc => isDigit_of_mem_digits hc
  simp [natural?, digits_ne_nil, h]

/-- The numeral of a positive number does not start with a zero. -/
theorem head?_digits_ne_zero {n : Nat} (hn : 0 < n) : (digits n).head? ≠ some '0' := by
  have hdigit : ∀ d < 10, 0 < d → [Nat.digitChar d].head? ≠ some '0' := by decide
  induction n using Nat.strongRecOn with
  | ind n ih =>
    unfold digits at ih ⊢
    by_cases hsmall : n < 10
    · rw [Nat.toDigits_of_lt_base hsmall]
      exact hdigit n hsmall hn
    · have hshorter := ih (n / 10) (by omega) (by omega)
      rw [Nat.toDigits_of_base_le (by decide) (by omega), List.head?_append]
      cases hhead : (Nat.toDigits 10 (n / 10)).head? with
      | none => exact absurd (List.head?_eq_none_iff.mp hhead) (digits_ne_nil (n / 10))
      | some c =>
        rw [hhead] at hshorter
        exact hshorter

/-- The numeral of a positive number is its shortest one. -/
theorem positive?_digits {n : Nat} (hn : 0 < n) : positive? (digits n) = some n := by
  cases hcs : digits n with
  | nil => exact absurd hcs (digits_ne_nil n)
  | cons c cs =>
    have hzero : c ≠ '0' := by
      rintro rfl
      exact head?_digits_ne_zero hn (by rw [hcs, List.head?_cons])
    rw [positive?, if_neg hzero, ← hcs, natural?_digits]

/-- A number is read off a text exactly when the text is a numeral, and then it is its value. -/
theorem natural?_eq_some_iff {cs : List Char} {n : Nat} :
    natural? cs = some n ↔ cs ≠ [] ∧ (∀ c ∈ cs, c.isDigit = true) ∧ value cs = n := by
  rw [natural?, Option.ite_none_right_eq_some, List.all_eq_true, Option.some.injEq, and_assoc]

/-- Digits in front of others count that much more. -/
theorem value_append (front back : List Char) :
    value (front ++ back) = value front * Nat.pow 10 back.length + value back := by
  rw [value, Nat.ofDigitChars_append, Nat.ofDigitChars_eq_ofDigitChars_zero]
  rw [Nat.mul_comm]
  rfl

theorem isDigit_of_mem_lastDigits {width n : Nat} {c : Char} (h : c ∈ lastDigits width n) :
    c.isDigit = true := by
  fun_induction lastDigits width n with
  | case1 => simp at h
  | case2 n _ =>
    rw [List.mem_singleton.mp h, Nat.isDigit_digitChar, decide_eq_true (Nat.mod_lt n (by decide))]
  | case3 width n _ _ low ih₁ ih₂ => exact (List.mem_append.mp h).elim ih₁ ih₂

/-- The last digits have the value of the number, but for its multiples of a power of ten. -/
@[simp] theorem value_lastDigits (width n : Nat) :
    value (lastDigits width n) = n % Nat.pow 10 width := by
  have hdigit : ∀ d < 10, value [Nat.digitChar d] = d := by decide
  fun_induction lastDigits width n with
  | case1 n => exact (Nat.mod_one n).symm
  | case2 n _ => exact hdigit (n % 10) (Nat.mod_lt n (by decide))
  | case3 width n _ _ low ih₁ ih₂ =>
    have hwidth : Nat.pow 10 width = Nat.pow 10 low * Nat.pow 10 (width - low) := by
      have hle : low ≤ width := Nat.div_le_self width 2
      calc Nat.pow 10 width = Nat.pow 10 (low + (width - low)) := by rw [Nat.add_sub_cancel' hle]
        _ = Nat.pow 10 low * Nat.pow 10 (width - low) := Nat.pow_add 10 low (width - low)
    rw [value_append, ih₁, ih₂, length_lastDigits, Nat.mod_mod, hwidth, Nat.mod_mul, Nat.add_comm,
      Nat.mul_comm]

/-- Only the numeral of zero starts with a zero. -/
theorem digits_eq_of_head? {n : Nat} (h : (digits n).head? = some '0') : digits n = ['0'] := by
  rcases Nat.eq_zero_or_pos n with rfl | hn
  · rfl
  · exact absurd h (head?_digits_ne_zero hn)

/-- A digit is the one that its distance from zero is written as. -/
theorem digitChar_of_isDigit {c : Char} (h : c.isDigit = true) :
    c.toNat - '0'.toNat < 10 ∧ Nat.digitChar (c.toNat - '0'.toNat) = c := by
  obtain ⟨hlow, hhigh⟩ := Char.isDigit_iff_toNat.mp h
  have hzero : '0'.toNat = 48 := rfl
  have hnine : '9'.toNat = 57 := rfl
  have hlt : c.toNat - '0'.toNat < 10 := by omega
  refine ⟨hlt, Char.toNat_inj.mp ?_⟩
  rw [Nat.toNat_digitChar_of_lt_ten hlt]
  omega

/-- Digits behind the numeral of a positive number make the numeral of what is read on from it. -/
theorem digits_append {acc : Nat} (hacc : 0 < acc) {cs : List Char}
    (hcs : ∀ c ∈ cs, c.isDigit = true) : digits acc ++ cs = digits (Nat.ofDigitChars 10 cs acc) := by
  induction cs generalizing acc with
  | nil => exact List.append_nil _
  | cons c cs ih =>
    obtain ⟨hc, hcs⟩ := List.forall_mem_cons.mp hcs
    obtain ⟨hlt, hdigit⟩ := digitChar_of_isDigit hc
    have hone : digits acc ++ [c] = digits (10 * acc + (c.toNat - '0'.toNat)) := by
      rw [digits, digits, ← Nat.toDigits_append_toDigits (by decide) hacc hlt,
        Nat.toDigits_of_lt_base hlt, hdigit]
    calc digits acc ++ c :: cs = (digits acc ++ [c]) ++ cs := List.append_cons _ _ _
      _ = digits (10 * acc + (c.toNat - '0'.toNat)) ++ cs := by rw [hone]
      _ = digits (Nat.ofDigitChars 10 (c :: cs) acc) := by
        rw [ih (by omega) hcs, Nat.ofDigitChars_cons]

/-- A numeral that does not start with a zero is the one of its value. -/
theorem digits_value {cs : List Char} (hcs : ∀ c ∈ cs, c.isDigit = true) (hne : cs ≠ [])
    (hzero : cs.head? ≠ some '0') : digits (value cs) = cs := by
  cases cs with
  | nil => exact absurd rfl hne
  | cons c cs =>
    obtain ⟨hc, hcs⟩ := List.forall_mem_cons.mp hcs
    obtain ⟨hlt, hdigit⟩ := digitChar_of_isDigit hc
    have hpos : 0 < c.toNat - '0'.toNat := Nat.pos_of_ne_zero fun h => by
      rw [h] at hdigit
      exact hzero (congrArg some hdigit.symm)
    have hfirst : digits (c.toNat - '0'.toNat) = [c] := by
      rw [digits, Nat.toDigits_of_lt_base hlt, hdigit]
    rw [value, Nat.ofDigitChars_cons, Nat.mul_zero, Nat.zero_add, ← digits_append hpos hcs, hfirst,
      List.singleton_append]

/-- A positive number is read off its own numeral and off no other text. -/
theorem positive?_eq_some_iff {cs : List Char} {n : Nat} :
    positive? cs = some n ↔ 0 < n ∧ cs = digits n := by
  constructor
  · intro h
    unfold positive? at h
    split at h
    · cases h
    · next c cs =>
      obtain ⟨hzero, hread⟩ := Option.ite_none_left_eq_some.mp h
      obtain ⟨hne, hcs, rfl⟩ := natural?_eq_some_iff.mp hread
      have hdigits : digits (value (c :: cs)) = c :: cs :=
        digits_value hcs hne fun hhead => hzero (Option.some.inj hhead)
      refine ⟨Nat.pos_of_ne_zero fun hvalue => hzero ?_, hdigits.symm⟩
      rw [hvalue] at hdigits
      exact (List.cons.inj hdigits).1.symm
  · rintro ⟨hn, rfl⟩
    exact positive?_digits hn

/-- Zeros alone have the value zero. -/
theorem value_eq_zero_iff {cs : List Char} (hcs : ∀ c ∈ cs, c.isDigit = true) :
    value cs = 0 ↔ ∀ c ∈ cs, c = '0' := by
  induction cs with
  | nil => simp [value]
  | cons c cs ih =>
    obtain ⟨hc, hcs⟩ := List.forall_mem_cons.mp hcs
    obtain ⟨hlow, _⟩ := Char.isDigit_iff_toNat.mp hc
    have hfirst : value [c] = c.toNat - '0'.toNat := by simp [value, Nat.ofDigitChars_cons]
    have hc : value [c] = 0 ↔ c = '0' := by
      rw [hfirst, ← Char.toNat_inj]
      omega
    have hpow : Nat.pow 10 cs.length ≠ 0 := Nat.ne_of_gt (Nat.pow_pos (by decide))
    rw [← List.singleton_append, value_append, Nat.add_eq_zero_iff, Nat.mul_eq_zero, or_iff_left hpow,
      hc, ih hcs, List.singleton_append, List.forall_mem_cons]

end LessonGrid.Numeral
