import LessonGrid.Cell.Range
import LessonGrid.Grid.Row
import LessonGrid.Json.Basic

/-!
# Rows and ranges as JSON

Records are objects with a member for each field; members of other names are left aside. Reading also
takes an array with the fields in their order. A row may lack fields, which are empty then; addresses
and ranges may not.
-/

set_option autoImplicit false

namespace LessonGrid

/-- The text of a field: a string, or nothing for a field that is missing. -/
def Json.fieldText? : Option Json → Option String
  | none => some ""
  | some value => value.string?

/-- The row of a record. -/
def Row.ofJson? : Json → Option Row
  | .array items =>
    if items.length ≤ 5 then (items.mapM Json.string?).map Row.ofCells else none
  | .object members =>
    (Column.all.mapM fun col => Json.fieldText? (members.lookup col.heading)).map Row.ofCells
  | _ => none

/-- A row as an object. -/
def Row.toJson (row : Row) : Json :=
  .object (Column.all.map fun col => (col.heading, .string (row.get col)))

/-- The two fields of a record of two: an object with both members, or an array of just two. -/
def Json.pair? (first second : String) : Json → Option (Json × Json)
  | .array [x, y] => some (x, y)
  | .object members =>
    match members.lookup first, members.lookup second with
    | some x, some y => some (x, y)
    | _, _ => none
  | _ => none

/-- The address of a record; in an array the row comes first. -/
def Address.ofJson? (json : Json) : Option Address := do
  let (row, col) ← json.pair? "row" "col"
  some ⟨← col.word?, ← row.word?⟩

/-- An address as an object. -/
def Address.toJson (a : Address) : Json :=
  .object [("row", .integer a.row.toNat), ("col", .integer a.col.toNat)]

/-- The range of a record. -/
def Range.ofJson? (json : Json) : Option Range := do
  let (first, last) ← json.pair? "start" "end"
  some ⟨← Address.ofJson? first, ← Address.ofJson? last⟩

/-- A range as an object. -/
def Range.toJson (r : Range) : Json :=
  .object [("start", r.first.toJson), ("end", r.last.toJson)]

@[simp] theorem Row.ofJson?_toJson (row : Row) : Row.ofJson? row.toJson = some row := by
  cases row; rfl

end LessonGrid
