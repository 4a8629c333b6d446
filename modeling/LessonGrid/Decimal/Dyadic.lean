/-!
# Exact values of binary64 numbers

A finite binary64 number is a whole number times a power of two. `Dyadic.ofFloat?` reads sign,
mantissa and exponent off the 64 bits, so that everything after it is arithmetic on whole numbers.
-/

set_option autoImplicit false

namespace LessonGrid

/-- The number `± mantissa * 2 ^ exponent`. -/
structure Dyadic where
  negative : Bool
  mantissa : Nat
  exponent : Int
  deriving DecidableEq, Repr, Inhabited

namespace Dyadic

/-- The bits of a binary64 number's exponent. -/
def exponentBits : Nat :=
  11

/-- The bits of a binary64 number's fraction. -/
def fractionBits : Nat :=
  52

/-- The value of a word read as a binary64 number: the sign bit, the bits of the exponent and the
bits of the fraction. The highest exponent is kept for infinities and not-a-number, which
have no value; the lowest one marks the numbers without the implicit leading bit. -/
def ofBits? (bits : Nat) : Option Dyadic :=
  let negative : Bool := Nat.pow 2 (exponentBits + fractionBits) ≤ bits
  let biased : Nat := bits / Nat.pow 2 fractionBits % Nat.pow 2 exponentBits
  let fraction := bits % Nat.pow 2 fractionBits
  if biased = 2047 then none
  else if biased = 0 then some ⟨negative, fraction, -1074⟩
  else some ⟨negative, Nat.pow 2 fractionBits + fraction, biased - 1075⟩

/-- The exact value of a binary64 number, when it is finite. -/
def ofFloat? (x : Float) : Option Dyadic :=
  ofBits? x.toBits.toNat

/-- The magnitude of an integral value, and nothing for a value with a fraction. -/
def integer? (d : Dyadic) : Option Nat :=
  match d.exponent with
  | .ofNat e => some (d.mantissa * Nat.pow 2 e)
  | .negSucc e =>
    if d.mantissa % Nat.pow 2 (e + 1) = 0 then some (d.mantissa / Nat.pow 2 (e + 1)) else none

/-- The magnitude as a fraction: numerator and denominator, not reduced. -/
def ratio (d : Dyadic) : Nat × Nat :=
  match d.exponent with
  | .ofNat e => (d.mantissa * Nat.pow 2 e, 1)
  | .negSucc e => (d.mantissa, Nat.pow 2 (e + 1))

theorem ratio_den_pos (d : Dyadic) : 0 < d.ratio.2 := by
  unfold ratio
  split
  · exact Nat.one_pos
  · exact Nat.two_pow_pos _

end Dyadic

end LessonGrid
