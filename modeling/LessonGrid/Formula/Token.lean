import LessonGrid.Cell.Range
import LessonGrid.Decimal.Shortest
import LessonGrid.Formula.Aggregate

/-!
# Tokens

The words of the formula language: numbers, addresses, calls of aggregate functions with their
range, operators, parentheses, and two marks that no formula may hold on their own.
-/

set_option autoImplicit false

namespace LessonGrid

/-- The operations between two numbers. -/
inductive Operator where
  | add
  | sub
  | mul
  | div
  deriving DecidableEq, Repr, Inhabited

namespace Operator

/-- The sign of an operator. -/
def sign : Operator → Char
  | add => '+'
  | sub => '-'
  | mul => '*'
  | div => '/'

/-- The operator of a sign. -/
def ofSign? : Char → Option Operator
  | '+' => some add
  | '-' => some sub
  | '*' => some mul
  | '/' => some div
  | _ => none

theorem sign_of_ofSign? {c : Char} {op : Operator} (h : ofSign? c = some op) : op.sign = c := by
  unfold ofSign? at h
  split at h <;> cases h <;> rfl

end Operator

/-- A word of a formula. A call is a single token, since nothing may stand between the parts of
it. The same sign subtracts and negates. -/
inductive Token where
  | number (value : Float)
  | cell (address : Address)
  | call (function : Aggregate) (range : Range)
  | operator (op : Operator)
  | opening
  | closing
  | colon
  | point
  deriving DecidableEq, Repr, Inhabited

/-- A number in the fewest digits that read back, without an exponent. -/
def plainNumber (x : Float) : List Char :=
  match Dyadic.ofFloat? x with
  | none => if x.isNaN then "NaN".toList else if x < 0 then "-inf".toList else "inf".toList
  | some d => (if d.negative then ['-'] else []) ++ d.shortest.positional

/-- How messages speak of a token, if what it refers to has a text. -/
def Token.describe? : Token → Option String
  | number x => some ("number " ++ String.ofList (plainNumber x))
  | cell a => a.text?.map fun text => "reference " ++ String.ofList text
  | call f r => r.text?.map fun text => f.name ++ "(" ++ String.ofList text ++ ")"
  | operator op => some ("'" ++ op.sign.toString ++ "'")
  | opening => some "'('"
  | closing => some "')'"
  | colon => some "':'"
  | point => some "'.'"

end LessonGrid
