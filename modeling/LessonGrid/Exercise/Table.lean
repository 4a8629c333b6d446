import LessonGrid.Exercise.Basic

/-!
# Exercises as Markdown tables

The used rows of an exercise as a table of what their cells show, under a heading. A bar in a cell is
written with a backslash in front, so that it does not end the cell.
-/

set_option autoImplicit false

namespace LessonGrid

/-- A cell's text with a backslash in front of every bar. -/
def escapeBars : List Char → List Char
  | [] => []
  | '|' :: cs => '\\' :: '|' :: escapeBars cs
  | c :: cs => c :: escapeBars cs

namespace Exercise

/-- A line of a table: each piece between blanks and bars, and a bar in front. -/
def tableLine (pieces : List (List Char)) : List Char :=
  '|' :: pieces.flatMap (fun piece => ' ' :: piece ++ [' ', '|']) ++ ['\n']

/-- The line with the letters of the columns. -/
def tableHead : List Char :=
  tableLine ([' '] :: Column.all.map fun col => [col.letter])

/-- The line between the letters and the rows. -/
def tableRule : List Char :=
  '|' :: (List.replicate 6 "---|".toList).flatten ++ ['\n']

/-- The line of a row: its number, counted from one, and what its cells show. -/
def tableRow (ex : Exercise) (row : Nat) : List Char :=
  tableLine (Numeral.digits (row + 1) ::
    Column.all.map fun col => escapeBars (ex.display (Address.ofColumn col row)).toList)

/-- The exercise as a document with a table of its used rows. -/
def table (ex : Exercise) : String :=
  let title := "# Exercise\n\n".toList
  let body :=
    if ex.usedCount = 0 then "*Empty grid*\n".toList
    else tableHead ++ tableRule ++ (List.range ex.usedCount).flatMap ex.tableRow
  String.ofList (title ++ body)

end Exercise

end LessonGrid
