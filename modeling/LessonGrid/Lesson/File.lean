import LessonGrid.Grid.Basic
import LessonGrid.Lesson.Fault
import LessonGrid.Lesson.Fields

/-!
# Lesson files

A lesson file has a row of cells in each line. A first line of just the five headings, the case of
ASCII letters aside, is no row. Lines may have fewer fields than there are columns, but not more, and
blank rows at the end are no part of the lesson.
-/

set_option autoImplicit false

namespace LessonGrid.Lesson

/-- A line without the carriage return that it may end with. -/
def dropReturn (line : List Char) : List Char :=
  if line.getLast? = some '\r' then line.dropLast else line

/-- The lines of a text. Each line feed ends one, with the carriage return in front of it; what
follows the last line feed is a line when it is not empty. -/
def lines (text : List Char) : List (List Char) :=
  let pieces := text.splitOn '\n'
  let last := pieces.getLast?.getD []
  pieces.dropLast.map dropReturn ++ if last.isEmpty then [] else [last]

/-- Whether fields are the five headings. -/
def isHeader (fields : List (List Char)) : Bool :=
  fields.map (·.map Char.toLower) == Column.all.map fun col => col.heading.toList

/-- The row of the fields of a line. -/
def rowOf (line : Nat) (fields : List (List Char)) : Except LessonFault Row :=
  if 5 < fields.length then .error (.tooManyFields line fields.length)
  else .ok (Row.ofCells (fields.map String.ofList))

/-- The rows of some lines, the first of which has the given number. -/
def rowsFrom (line : Nat) : List (List (List Char)) → Except LessonFault (List Row)
  | [] => .ok []
  | fields :: rest =>
    match rowOf line fields with
    | .error fault => .error fault
    | .ok row =>
      match rowsFrom (line + 1) rest with
      | .error fault => .error fault
      | .ok rows => .ok (row :: rows)

/-- The rows of the lines of a file, with blank rows at the end. -/
def rowsOf : List (List (List Char)) → Except LessonFault (List Row)
  | [] => .ok []
  | fields :: rest =>
    if isHeader fields then rowsFrom 2 rest else rowsFrom 1 (fields :: rest)

/-- The rows of a lesson file. -/
def parse (text : String) : Except LessonFault (List Row) :=
  match rowsOf ((lines text.toList).map Fields.split) with
  | .error fault => .error fault
  | .ok rows => .ok (Grid.mk rows).usedRows

/-- The line of a row. -/
def line (row : Row) : List Char :=
  Fields.joined (row.cells.map String.toList) ++ ['\n']

/-- The line of the five headings. -/
def header : List Char :=
  [','].intercalate (Column.all.map fun col => col.heading.toList) ++ ['\n']

/-- The text of a lesson file with the given rows, but for blank ones at the end. -/
def write (rows : List Row) : String :=
  String.ofList (header ++ (Grid.mk rows).usedRows.flatMap line)

end LessonGrid.Lesson
