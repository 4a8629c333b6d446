import LessonGrid.Formula.Token

/-!
# Faults of formulas

Everything that can keep a formula from having a value, cause by cause; the three kinds of faults,
which a cell shows as a code; and the wording of each cause, all of it in `Fault.message?`. Beside the
three kinds there is the stop of the whole program where counting leaves the words.
-/

set_option autoImplicit false

namespace LessonGrid

/-- Where a token stands that does not belong there. -/
inductive Misplacement where
  | asOperand
  | afterExpression
  | insteadOfClosing
  deriving DecidableEq, Repr, Inhabited

/-- Why a formula has no value. -/
inductive Fault where
  /-- Formulas refer to formulas more levels deep than are followed. -/
  | circular
  | unexpectedCharacter (c : Char)
  | unknownName (word : List Char)
  | malformedCall (function : Aggregate)
  | misplaced (place : Misplacement) (token : Token)
  | emptyFormula
  | unexpectedEnd
  | unclosed
  | nestedTooDeeply
  | divisionByZero
  | notFinite
  | emptyRange (function : Aggregate)
  | rangeTooLarge (range : Range)
  /-- The program stops, since a count or a row's number leaves the words. -/
  | overflow
  deriving DecidableEq, Repr, Inhabited

/-- The kinds of faults: following references too deep, a text outside the formula language,
everything else that goes wrong with a formula, and the stop of the program, which is no fault of a
formula. -/
inductive FaultKind where
  | circular
  | language
  | evaluation
  | overflow
  deriving DecidableEq, Repr, Inhabited

/-- The largest number of cells of a range that is still swept for its values. -/
def maxSweep : Nat :=
  100000

/-- What a cell shows in place of a value. Nothing is shown once the program has stopped. -/
def FaultKind.code : FaultKind → String
  | circular => "#CIRCULAR!"
  | language => "#SYNTAX!"
  | evaluation => "#ERROR!"
  | overflow => ""

namespace Fault

/-- The kind of a fault. A colon can stand only within a call, so wherever one is misplaced the
text is outside the language. -/
def kind : Fault → FaultKind
  | circular => .circular
  | unexpectedCharacter _ | unknownName _ | malformedCall _ | misplaced _ .colon => .language
  | misplaced _ _ | emptyFormula | unexpectedEnd | unclosed | nestedTooDeeply | divisionByZero | notFinite
  | emptyRange _ | rangeTooLarge _ => .evaluation
  | overflow => .overflow

/-- The cause in words, if what is named in it has a text. -/
def detail? : Fault → Option String
  | circular => some "circular reference"
  | unexpectedCharacter c => some ("unexpected character '" ++ c.toString ++ "'")
  | unknownName word => some ("unknown name '" ++ String.ofList word ++ "'")
  | malformedCall f => some (f.name ++ " expects a range like " ++ f.name ++ "(A1:A5)")
  | misplaced .asOperand t => t.describe?.map fun token => "unexpected " ++ token
  | misplaced .afterExpression t =>
    t.describe?.map fun token => "unexpected " ++ token ++ " after expression"
  | misplaced .insteadOfClosing t => t.describe?.map fun token => "expected ')', found " ++ token
  | emptyFormula => some "empty formula"
  | unexpectedEnd => some "unexpected end of expression"
  | unclosed => some "expected ')', found end of expression"
  | nestedTooDeeply => some "expression nested too deeply"
  | divisionByZero => some "division by zero"
  | notFinite => some "result is not a finite number"
  | emptyRange f => some (f.name ++ " of an empty range")
  | rangeTooLarge r => r.text?.map fun text =>
    "range " ++ String.ofList text ++ " covers more than " ++ toString maxSweep ++ " cells"
  | overflow => some Word.overflowText

/-- The whole message of a fault: its kind, where it has one that is named, and the cause. -/
def message? (f : Fault) : Option String :=
  f.detail?.map fun detail =>
    match f.kind with
    | .circular => detail
    | .language => "syntax error: " ++ detail
    | .evaluation => "evaluation error: " ++ detail
    | .overflow => detail

/-- The code that a cell shows for a fault. -/
def code (f : Fault) : String :=
  f.kind.code

end Fault

end LessonGrid
