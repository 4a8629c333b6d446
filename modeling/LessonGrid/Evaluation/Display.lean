import LessonGrid.Evaluation.Basic

/-!
# Values as shown

What a cell shows: text as it is, the code of a fault, and a number with a chosen number of decimal
places. Whole numbers below ten thousand millions are shown without decimals; zero is shown as a
bare digit.
-/

set_option autoImplicit false

namespace LessonGrid

/-- The number of decimal places where nothing else is chosen. -/
def defaultPlaces : Nat :=
  2

/-- Whole numbers from this one on are shown with decimal places too. -/
def wholeLimit : Nat :=
  10000000000

/-- A finite number as shown: the sign, and the magnitude rounded to the places, a half to the even
neighbour. -/
def Dyadic.shown (d : Dyadic) (places : Nat) : List Char :=
  let magnitude :=
    match d.integer? with
    | some n => if n < wholeLimit then Numeral.digits n else fixedText places (d.units places)
    | none => fixedText places (d.units places)
  if d.mantissa = 0 then ['0'] else if d.negative then '-' :: magnitude else magnitude

/-- A number as shown. -/
def numberText (x : Float) (places : Nat) : String :=
  match Dyadic.ofFloat? x with
  | some d => String.ofList (d.shown places)
  | none => if x.isNaN then "#NAN!" else "#INF!"

/-- The outcome of an evaluation as shown in a cell. -/
def resultText (result : Except Fault Value) (places : Nat) : String :=
  match result with
  | .ok (.number x) => numberText x places
  | .ok (.text s) => s
  | .error fault => fault.code

end LessonGrid
