import LessonGrid.Evaluation.Arithmetic
import LessonGrid.Grid.Basic
import LessonGrid.Grid.Content

/-!
# Evaluation

The value of a cell's text in a grid. A literal stands for itself. A formula is read and its tree is
walked; a cell that it refers to has the number that its content stands for, and when that content is
a formula too, the formula is evaluated one level further down. Ten levels below the first are
followed and an eleventh is a circular reference: nothing else guards against formulas that refer to
each other in a circle.

A fault of a formula that is referred to by itself is the fault of the whole, whereas in a range it
counts as zero.
-/

set_option autoImplicit false

namespace LessonGrid

/-- What a cell holds once evaluated. -/
inductive Value where
  | number (x : Float)
  | text (s : String)
  deriving DecidableEq, Repr, Inhabited

/-- The number that a value stands for in arithmetic; text counts as zero. -/
def Value.amount : Value → Float
  | number x => x
  | text _ => 0

/-- The value of a text that is no formula. -/
def Value.ofLiteral (text : String) : Value :=
  match finiteNumber? text with
  | some x => .number x
  | none => .text text

/-- The lowest level, counted from zero, on which a formula is still evaluated. -/
def maxLevel : Nat :=
  10

/-- Why a range is not swept, where it is not: it has too many cells. The message names the range, and
so the program stops at one whose ends have no text, as it does at one that it cannot count. -/
def Range.refusal? (r : Range) : Option Fault :=
  match r.size? with
  | none => some .overflow
  | some n =>
    if n ≤ maxSweep then none
    else if r.text?.isSome then some (.rangeTooLarge r) else some .overflow

/-- The numbers of the cells of a range in the order of the sweep, zero for a cell at fault. No cell
stops the program: the ranges that its formula names can be counted and have a text. -/
def sweep (read : Address → Except Fault Float) (r : Range) : Except Fault (List Float) :=
  match r.refusal? with
  | some fault => .error fault
  | none => .ok (r.cells.map fun a => (read a).toOption.getD 0)

/-- The number of a formula, when `read` gives the numbers of the cells that it refers to. -/
def Tree.evaluate (read : Address → Except Fault Float) : Tree → Except Fault Float
  | number x => finite x
  | cell a => read a
  | aggregate f r =>
    match sweep read r with
    | .error fault => .error fault
    | .ok xs =>
      match f.apply xs with
      | .error fault => .error fault
      | .ok x => finite x
  | negation t =>
    match t.evaluate read with
    | .error fault => .error fault
    | .ok x => .ok (-x)
  | binary op left right =>
    match left.evaluate read with
    | .error fault => .error fault
    | .ok x =>
      match right.evaluate read with
      | .error fault => .error fault
      | .ok y => op.apply x y

namespace Grid

/-- The number of a cell when formulas have the values that `value` gives. A cell outside the grid
is empty. -/
def readWith (g : Grid) (value : String → Except Fault Value) (a : Address) : Except Fault Float :=
  match g.raw? a with
  | none => .ok 0
  | some raw =>
    match Content.ofText raw with
    | .formula formula => (value formula).map Value.amount
    | content => .ok content.amount

/-- The value of a text when formulas may be evaluated on the given number of levels. -/
def valueWithin (g : Grid) : Nat → String → Except Fault Value
  | levels, text =>
    match formulaBody? text with
    | none => .ok (.ofLiteral text)
    | some body =>
      match levels with
      | 0 => .error .circular
      | levels + 1 =>
        match Tree.ofBody body with
        | .error fault => .error fault
        | .ok tree => (tree.evaluate (g.readWith (g.valueWithin levels))).map .number

/-- How many levels are left at a level and below it. -/
def levelsFrom (level : Nat) : Nat :=
  maxLevel + 1 - level

/-- The value of a text that stands on the given level. -/
def evaluate (g : Grid) (text : String) (level : Nat) : Except Fault Value :=
  g.valueWithin (levelsFrom level) text

/-- The number of a cell that a formula on the given level refers to. -/
def resolve (g : Grid) (a : Address) (level : Nat) : Except Fault Float :=
  g.readWith (g.valueWithin (levelsFrom (level + 1))) a

/-- The numbers of the cells of a range that a formula on the given level refers to. -/
def expand (g : Grid) (r : Range) (level : Nat) : Except Fault (List Float) :=
  sweep (fun a => g.resolve a level) r

/-- The value of a cell. A cell outside the grid holds empty text. -/
def valueAt (g : Grid) (a : Address) : Except Fault Value :=
  match g.raw? a with
  | some raw => g.evaluate raw 0
  | none => .ok (.text "")

end Grid

/-- Whether a character may stand in a calculation without cells: digits, the signs of the
operators, parentheses, points and blanks. -/
def isArithmetic (c : Char) : Bool :=
  c.isDigit || isBlank c || (Token.ofMark? c).isSome && c != ':'

/-- The result of a calculation without cells or functions. -/
def calculate (text : List Char) : Except Fault Float :=
  match text.find? fun c => !isArithmetic c with
  | some c => .error (.unexpectedCharacter c)
  | none =>
    match Tree.ofBody text with
    | .error fault => .error fault
    | .ok tree => tree.evaluate (Grid.empty.resolve · 0)

end LessonGrid
