import LessonGrid.Exercise.Table
import LessonGrid.Lesson.File
import LessonGrid.Storage.Access

/-!
# Loading, saving and exporting exercises

An exercise is loaded from a lesson file, saved back to it, and exported as a table. A failed
operation leaves exercise and files as they were, except that a failed write may leave any file at
its path.
-/

set_option autoImplicit false

namespace LessonGrid.Exercise

/-- The exercise of a lesson file's text, which has to hold a row that is not blank. -/
def ofLesson (path text : String) : Except LessonFault Exercise :=
  match Lesson.parse text with
  | .error fault => .error fault
  | .ok [] => .error .emptyLesson
  | .ok rows => .ok { ofRows rows with file := some path }

/-- The text of the exercise as a lesson file. -/
def lesson (ex : Exercise) : String :=
  Lesson.write ex.grid.rows

variable {m : Type → Type} [Monad m]

/-- Loads the exercise of the lesson file at a path. -/
def load (files : FileAccess m) (path : String) : m (Except LessonFault Exercise) := do
  match ← files.readText path with
  | .error fault => pure (.error (.file fault))
  | .ok text => pure (ofLesson path text)

/-- Saves the exercise to its lesson file. It counts as unedited from then on. -/
def save (ex : Exercise) (files : FileAccess m) : m (Except LessonFault Exercise) :=
  match ex.file with
  | none => pure (.error .noFile)
  | some path => do
    match ← files.writeText path ex.lesson with
    | .error fault => pure (.error (.file fault))
    | .ok () => pure (.ok { ex with modified := false })

/-- Writes the table of the exercise to a path. -/
def exportTable (ex : Exercise) (files : FileAccess m) (path : String) :
    m (Except LessonFault Unit) := do
  match ← files.writeText path ex.table with
  | .error fault => pure (.error (.file fault))
  | .ok () => pure (.ok ())

end LessonGrid.Exercise
