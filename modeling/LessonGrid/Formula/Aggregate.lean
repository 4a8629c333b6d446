/-!
# Aggregate functions

The functions that a formula can apply to a range of cells: their names, as written in a formula
and in lists of functions, and what they compute from the values of the cells.
-/

set_option autoImplicit false

namespace LessonGrid

/-- A function of the values of a range. -/
inductive Aggregate where
  | sum
  | average
  | min
  | max
  | count
  deriving DecidableEq, Repr, Inhabited

namespace Aggregate

/-- The functions in the order in which they are listed. -/
def all : List Aggregate :=
  [sum, average, min, max, count]

/-- The name of a function in a formula. -/
def name : Aggregate → String
  | sum => "SUM"
  | average => "AVERAGE"
  | min => "MIN"
  | max => "MAX"
  | count => "COUNT"

/-- One line on what a function does. -/
def description : Aggregate → String
  | sum => "Sum of the values in a cell range"
  | average => "Average of the values in a cell range"
  | min => "Minimum value in a cell range"
  | max => "Maximum value in a cell range"
  | count => "Number of cells in a cell range"

/-- The function of a name, the case of ASCII letters aside. -/
def ofName? (word : List Char) : Option Aggregate :=
  all.find? fun f => f.name.toList = word.map Char.toUpper

/-- Every function answers to its name. -/
theorem ofName?_name (f : Aggregate) : ofName? f.name.toList = some f := by
  cases f <;> decide

/-- The lesser of two numbers. Not-a-number yields to the other one. -/
def lesser (x y : Float) : Float :=
  if x.isNaN then y else if y.isNaN then x else if y < x then y else x

/-- The greater of two numbers. Not-a-number yields to the other one. -/
def greater (x y : Float) : Float :=
  if x.isNaN then y else if y.isNaN then x else if x < y then y else x

/-- The sum of some numbers, added from the first to the last. -/
def total (xs : List Float) : Float :=
  xs.foldl (· + ·) 0

/-- The value of a function on the values of a range. An average, a minimum or a maximum of no
values at all does not exist. -/
def reduce? (f : Aggregate) (xs : List Float) : Option Float :=
  match f, xs with
  | sum, xs => some (total xs)
  | count, xs => some (Float.ofNat xs.length)
  | average, [] => none
  | average, xs => some (total xs / Float.ofNat xs.length)
  | min, [] => none
  | min, x :: xs => some (xs.foldl lesser x)
  | max, [] => none
  | max, x :: xs => some (xs.foldl greater x)

end Aggregate

end LessonGrid
