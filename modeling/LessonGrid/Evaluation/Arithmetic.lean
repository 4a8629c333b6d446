import LessonGrid.Formula.Parse

/-!
# Arithmetic

The computations of formulas on numbers, each of which gives a finite number or a fault.
-/

set_option autoImplicit false

namespace LessonGrid

/-- A result that is finite, or the fault of one that is not. -/
def finite (x : Float) : Except Fault Float :=
  if x.isFinite then .ok x else .error .notFinite

theorem isFinite_of_finite {x y : Float} (h : finite x = .ok y) : y.isFinite = true := by
  unfold finite at h
  split at h
  · next hx => cases h; exact hx
  · cases h

/-- The result of an operation. Zero of either sign divides nothing. -/
def Operator.apply (op : Operator) (x y : Float) : Except Fault Float :=
  match op with
  | .add => finite (x + y)
  | .sub => finite (x - y)
  | .mul => finite (x * y)
  | .div => if y == 0 then .error .divisionByZero else finite (x / y)

theorem Operator.isFinite_of_apply {op : Operator} {x y z : Float} (h : op.apply x y = .ok z) :
    z.isFinite = true := by
  cases op with
  | add => exact isFinite_of_finite h
  | sub => exact isFinite_of_finite h
  | mul => exact isFinite_of_finite h
  | div =>
    simp only [apply] at h
    split at h
    · cases h
    · exact isFinite_of_finite h

/-- The value of a function on the values of a range, finite or not. -/
def Aggregate.apply (f : Aggregate) (xs : List Float) : Except Fault Float :=
  match f.reduce? xs with
  | some x => .ok x
  | none => .error (.emptyRange f)

end LessonGrid
