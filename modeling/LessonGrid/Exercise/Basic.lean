import LessonGrid.Dependency.Cycle
import LessonGrid.Evaluation.Display
import LessonGrid.Lesson.Fault

/-!
# Exercises

An exercise is a grid of twenty rows with the way it is shown, the lesson file it belongs to, and
whether it has been edited since that file was read or written. Values are never kept: every reading
evaluates the grid as it is.
-/

set_option autoImplicit false

namespace LessonGrid

/-- The number of rows of an exercise. -/
def exerciseRows : Nat :=
  20

/-- A grid being worked on. -/
structure Exercise where
  grid : Grid
  length_rows : grid.rows.length = exerciseRows
  showsFormulas : Bool
  places : Nat
  file : Option String
  modified : Bool

namespace Exercise

/-- The rows of an exercise: the first rows of a lesson, and empty ones where it has too few. -/
def fill (rows : List Row) : List Row :=
  rows.take exerciseRows ++ List.replicate (exerciseRows - rows.length) Row.empty

theorem length_fill (rows : List Row) : (fill rows).length = exerciseRows := by
  simp only [fill, List.length_append, List.length_take, List.length_replicate]
  omega

/-- The exercise of a lesson's rows, unedited and without a file. -/
def ofRows (rows : List Row) : Exercise where
  grid := ⟨fill rows⟩
  length_rows := length_fill rows
  showsFormulas := false
  places := defaultPlaces
  file := none
  modified := false

/-- The exercise without content. -/
def new : Exercise :=
  ofRows []

instance : Inhabited Exercise :=
  ⟨new⟩

/-! ## Reading -/

/-- The text of a cell, if it is in the grid. -/
def raw? (ex : Exercise) (a : Address) : Option String :=
  ex.grid.raw? a

/-- The value of a cell. -/
def value (ex : Exercise) (a : Address) : Except Fault Value :=
  ex.grid.valueAt a

/-- What a cell shows: its own text when formulas are shown, else its value. -/
def display (ex : Exercise) (a : Address) : String :=
  if ex.showsFormulas then (ex.raw? a).getD ""
  else resultText (ex.value a) ex.places

/-- The number of rows up to the last one that is not blank. -/
def usedCount (ex : Exercise) : Nat :=
  ex.grid.usedRows.length

/-- The cells that lie on a cycle of references, row by row. -/
def circularCells (ex : Exercise) : List Address :=
  ex.grid.circularCells

/-! ## Editing -/

/-- The exercise with another text in a cell of its grid. -/
def write (ex : Exercise) (a : Address) (text : String) : Exercise :=
  { ex with
    grid := ex.grid.set a text
    length_rows := by rw [Grid.length_rows_set]; exact ex.length_rows
    modified := true }

/-- Puts a text into a cell, which has to be in the grid. Beside the exercise this gives the cycle of
references that a formula meets from there; such a formula is kept all the same. -/
def edit (ex : Exercise) (a : Address) (text : String) :
    Except LessonFault (Exercise × Option (List Address)) :=
  match ex.raw? a with
  | none => .error (.outsideGrid a)
  | some _ =>
    let edited := ex.write a text
    match formulaBody? text with
    | none => .ok (edited, none)
    | some _ => .ok (edited, edited.grid.findCycle? a)

/-- Puts a text into the cell that a name writes. -/
def editNamed (ex : Exercise) (name text : String) :
    Except LessonFault (Exercise × Option (List Address)) :=
  match Address.ofChars? name.toList with
  | none => .error (.invalidAddress name)
  | some a => ex.edit a text

/-- Empties a cell. -/
def clear (ex : Exercise) (a : Address) : Except LessonFault Exercise :=
  (ex.edit a "").map Prod.fst

/-- Shows formulas if values were shown, and the other way round. -/
def toggle (ex : Exercise) : Exercise :=
  { ex with showsFormulas := !ex.showsFormulas }

end Exercise

end LessonGrid
