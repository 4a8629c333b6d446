import LessonGrid.Decimal.Shortest
import LessonGrid.Text.Blank

/-!
# Reading decimal numbers

A decimal number in text is an optional sign, digits with at most one point among them, and an
optional power of ten. `Decimal.nearest` is the binary64 number nearest to a decimal, infinite when
the decimal is too large, and `finiteNumber?` reads a whole text as a finite number. Words for
infinity or for not-a-number are no numbers.
-/

set_option autoImplicit false

namespace LessonGrid

namespace Decimal

/-- Positive infinity, above every finite binary64 number. -/
def infinity : Float :=
  Float.ofBits 0x7FF0000000000000

/-- The binary64 number nearest to a decimal. A decimal of at least `10 ^ 310` is too large for any
finite number and one below `10 ^ -330` is nearest to zero; the number of binary digits shows either
without the power of ten being computed. -/
def nearest (d : Decimal) : Float :=
  if d.digits = 0 then 0
  else if d.exponent + (d.digits.log2 / 4 : Nat) > 310 then infinity
  else if d.exponent + (d.digits.log2 / 3 + 1 : Nat) < -330 then 0
  else Float.ofScientific d.digits (d.exponent < 0) d.exponent.natAbs

/-- The decimal with the given digits before and after its point. -/
def ofDigits (whole fraction : List Char) : Decimal :=
  ⟨Numeral.value (whole ++ fraction), -(fraction.length : Int)⟩

/-- The decimal times a power of ten. -/
def shift (d : Decimal) (power : Int) : Decimal :=
  ⟨d.digits, d.exponent + power⟩

end Decimal

/-- A sign in front of a text, taken off; it is negative after a minus. -/
def splitSign : List Char → Bool × List Char
  | '-' :: cs => (true, cs)
  | '+' :: cs => (false, cs)
  | cs => (false, cs)

/-- A magnitude of powers of ten far beyond the range of binary64 numbers. -/
def powerLimit : Nat :=
  65536

/-- The magnitude of a power of ten with the given digits. Once it has reached `powerLimit`, further
digits are left aside. -/
def powerValue (ds : List Char) : Nat :=
  ds.foldl (fun n c => if n < powerLimit then 10 * n + (c.toNat - '0'.toNat) else n) 0

/-- The power of ten after the digits: nothing, or `e` in either case with a signed numeral. -/
def power? : List Char → Option Int
  | [] => some 0
  | c :: cs =>
    if c = 'e' ∨ c = 'E' then
      let (negative, digits) := splitSign cs
      if digits ≠ [] ∧ digits.all Char.isDigit then
        some (if negative then -(powerValue digits : Int) else powerValue digits)
      else none
    else none

/-- An unsigned decimal number: digits on at least one side of an optional point, then an optional
power of ten. -/
def decimal? (cs : List Char) : Option Decimal :=
  let whole := cs.takeWhile Char.isDigit
  let rest := cs.dropWhile Char.isDigit
  let (fraction, rest) :=
    match rest with
    | '.' :: after => (after.takeWhile Char.isDigit, after.dropWhile Char.isDigit)
    | _ => ([], rest)
  if whole = [] ∧ fraction = [] then none
  else (power? rest).map (Decimal.ofDigits whole fraction).shift

/-- The finite number that a text writes, blanks around it left aside. A number too large to be
finite is none. -/
def finiteNumber? (text : String) : Option Float :=
  let (negative, body) := splitSign (trim text.toList)
  match decimal? body with
  | none => none
  | some d =>
    let x := d.nearest
    if x.isFinite then some (if negative then -x else x) else none

end LessonGrid
