import LessonGrid.Decimal.Dyadic
import LessonGrid.Text.Numeral

/-!
# A fixed number of decimal places

`roundHalfEven` rounds a quotient to the nearest whole number, a half going to the even neighbour.
`Dyadic.units` rounds an exact value that way to a count of decimal units, and `fixedText` writes
such a count with its decimal point.
-/

set_option autoImplicit false

namespace LessonGrid

/-- The whole number nearest to `num / den`; of two equally near ones, the even one. -/
def roundHalfEven (num den : Nat) : Nat :=
  let floor := num / den
  let rest := num % den
  if 2 * rest < den ∨ (2 * rest = den ∧ floor % 2 = 0) then floor else floor + 1

/-- The magnitude in units of `10 ^ -places`, rounded to the nearest unit, a half going to the even
neighbour. -/
def Dyadic.units (d : Dyadic) (places : Nat) : Nat :=
  roundHalfEven (d.ratio.1 * Nat.pow 10 places) d.ratio.2

/-- A count of units of `10 ^ -places`, written with a point in front of the last `places` digits;
there is no point when there are no places. -/
def fixedText (places count : Nat) : List Char :=
  if places = 0 then Numeral.digits count
  else
    Numeral.digits (count / Nat.pow 10 places) ++
      '.' :: Numeral.lastDigits places (count % Nat.pow 10 places)

end LessonGrid
