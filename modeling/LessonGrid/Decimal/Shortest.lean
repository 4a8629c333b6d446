import LessonGrid.Decimal.Fixed

/-!
# The shortest decimal of a binary64 number

The reals that round to a binary64 number form an interval around it. `Dyadic.shortest` looks for
the coarsest decimal grid, at most seventeen digits fine, with a point in that interval; on each
grid only the two points next to the value can be inside. Of two points inside, the nearer one is
taken, and the upper one when both are equally near.
-/

set_option autoImplicit false

namespace LessonGrid

/-- The number `digits * 10 ^ exponent`. -/
structure Decimal where
  digits : Nat
  exponent : Int
  deriving DecidableEq, Repr, Inhabited

namespace Decimal

/-- The decimal written without an exponent: zeros fill the places up to the units, and the places
after them follow a point. -/
def positional (d : Decimal) : List Char :=
  match d.exponent with
  | .ofNat e => Numeral.digits (d.digits * Nat.pow 10 e)
  | .negSucc e => fixedText (e + 1) d.digits

end Decimal

/-- The reals that round to a number, as the two ends times a common denominator, and whether the
ends themselves belong to it. -/
structure RoundingInterval where
  low : Nat
  value : Nat
  high : Nat
  denominator : Nat
  closed : Bool
  deriving DecidableEq, Repr

namespace RoundingInterval

/-- The interval of `mantissa * 2 ^ exponent`, in quarters of a unit in the last place: it reaches
half a unit up, and half a unit down, or a quarter where the numbers below are twice as dense. The
ends round to the number when its mantissa is even. -/
def ofDyadic (d : Dyadic) : RoundingInterval :=
  let below := if d.mantissa = Nat.pow 2 Dyadic.fractionBits ∧ d.exponent ≠ -1074 then 1 else 2
  let ⟨scale, denominator⟩ := (Dyadic.mk false 1 (d.exponent - 2)).ratio
  { low := (4 * d.mantissa - below) * scale
    value := 4 * d.mantissa * scale
    high := (4 * d.mantissa + 2) * scale
    denominator
    closed := d.mantissa % 2 = 0 }

/-- A quotient of naturals lies in the interval. -/
def contains (i : RoundingInterval) (num den : Nat) : Bool :=
  let point := num * i.denominator
  if i.closed then i.low * den ≤ point && point ≤ i.high * den
  else i.low * den < point && point < i.high * den

/-- The decimal exponent of the value's first digit: `10 ^ e ≤ value < 10 ^ (e + 1)`. -/
def leadingExponent (i : RoundingInterval) : Int :=
  if i.denominator ≤ i.value then (Numeral.digits (i.value / i.denominator)).length - 1
  else -(Numeral.digits ((i.denominator + i.value - 1) / i.value - 1)).length

/-- The point to take on the grid `10 ^ exponent`, if one lies in the interval. -/
def gridPoint? (i : RoundingInterval) (exponent : Int) : Option Decimal :=
  let up := Nat.pow 10 exponent.toNat
  let down := Nat.pow 10 (-exponent).toNat
  let num := i.value * down
  let den := i.denominator * up
  let lower := num / den
  let inside (c : Nat) := i.contains (c * up) down
  let upperNearer := den ≤ 2 * (num % den)
  if inside lower && !(inside (lower + 1) && upperNearer) then some ⟨lower, exponent⟩
  else if inside (lower + 1) then some ⟨lower + 1, exponent⟩
  else none

end RoundingInterval

/-- The decimal with the fewest digits that rounds to the given magnitude, and the nearest one of
those. Seventeen digits always suffice. -/
def Dyadic.shortest (d : Dyadic) : Decimal :=
  if d.mantissa = 0 then ⟨0, 0⟩
  else
    let interval := RoundingInterval.ofDyadic d
    let first := interval.leadingExponent
    ((List.range 18).findSome? fun (n : Nat) => interval.gridPoint? (first + 1 - n)).getD ⟨0, 0⟩

end LessonGrid
