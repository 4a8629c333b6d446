import LessonGrid.Cell.Address
import LessonGrid.Storage.Access

/-!
# Faults of lessons and exercises

What can go wrong when a lesson is loaded, edited or saved, and how it is worded.
-/

set_option autoImplicit false

namespace LessonGrid

/-- Why an operation on a lesson or an exercise fails. -/
inductive LessonFault where
  | file (fault : FileFault)
  /-- A line, counted from one, with more fields than there are columns. -/
  | tooManyFields (line count : Nat)
  | outsideGrid (address : Address)
  | invalidAddress (name : String)
  | emptyLesson
  | noFile
  deriving DecidableEq, Repr, Inhabited

namespace LessonFault

/-- A fault in words. The address of a cell may have no text. -/
def message? : LessonFault → Option String
  | file fault => some ("IO error: " ++ fault.message)
  | tooManyFields line count =>
    some ("Parse error at line " ++ toString line ++ ": expected at most 5 fields, found " ++
      toString count)
  | outsideGrid a =>
    a.text?.map fun text => "Cell " ++ String.ofList text ++ " is outside the exercise grid"
  | invalidAddress name => some ("Invalid cell reference: " ++ name)
  | emptyLesson => some "Lesson file is empty"
  | noFile => some "No file path set"

/-- A fault in words, followed by what caused it where something else did. -/
def trace? (fault : LessonFault) : Option String :=
  match fault with
  | file cause => fault.message?.map fun message => message ++ ": " ++ cause.message
  | _ => fault.message?

end LessonFault

end LessonGrid
