import LessonGrid.Cell.Column
import LessonGrid.Text.Blank

/-!
# Rows

A row of a lesson grid: five cells, each kept as the text that was typed into it. The fields bear
the headings of the lesson file.
-/

set_option autoImplicit false

namespace LessonGrid

/-- A row of five cells. -/
structure Row where
  name : String
  val1 : String
  c : String
  d : String
  e : String
  deriving DecidableEq, Repr

namespace Row

/-- The row whose cells are all empty. -/
def empty : Row :=
  ⟨"", "", "", "", ""⟩

instance : Inhabited Row :=
  ⟨empty⟩

/-- The text of the cell in a column. -/
def get (row : Row) : Column → String
  | .a => row.name
  | .b => row.val1
  | .c => row.c
  | .d => row.d
  | .e => row.e

/-- The row with another text in one column. -/
def set (row : Row) (col : Column) (text : String) : Row :=
  match col with
  | .a => { row with name := text }
  | .b => { row with val1 := text }
  | .c => { row with c := text }
  | .d => { row with d := text }
  | .e => { row with e := text }

/-- The five texts from left to right. -/
def cells (row : Row) : List String :=
  Column.all.map row.get

/-- The row of the given texts from left to right: missing cells are empty and texts past the last
column are left out. -/
def ofCells (cells : List String) : Row :=
  let cell (col : Column) := cells[col.index]?.getD ""
  ⟨cell .a, cell .b, cell .c, cell .d, cell .e⟩

/-- A row is blank when each of its cells is. -/
def isBlank (row : Row) : Bool :=
  row.cells.all fun text => isBlankText text.toList

@[simp] theorem get_set_self (row : Row) (col : Column) (text : String) :
    (row.set col text).get col = text := by
  cases col <;> rfl

theorem get_set_of_ne (row : Row) {col other : Column} (text : String) (h : other ≠ col) :
    (row.set col text).get other = row.get other := by
  cases col <;> cases other <;> simp_all [get, set]

/-- After a change every text in the row is the new one or has been there before. -/
theorem mem_cells_set {row : Row} {col : Column} {text cell : String}
    (h : cell ∈ (row.set col text).cells) : cell = text ∨ cell ∈ row.cells := by
  obtain ⟨other, hother, rfl⟩ := List.mem_map.mp h
  by_cases heq : other = col
  · exact .inl (heq ▸ get_set_self row col text)
  · rw [get_set_of_ne row text heq]
    exact .inr (List.mem_map_of_mem hother)

@[simp] theorem ofCells_cells (row : Row) : ofCells row.cells = row := by
  cases row; rfl

theorem length_cells (row : Row) : row.cells.length = 5 :=
  rfl

/-- The cells of a row of given texts are among the texts, or empty. -/
theorem mem_cells_ofCells {cells : List String} {text : String} (h : text ∈ (ofCells cells).cells) :
    text ∈ cells ∨ text = "" := by
  have hcell : ∀ i : Nat, cells[i]?.getD "" ∈ cells ∨ cells[i]?.getD "" = "" := by
    intro i
    cases hi : cells[i]? with
    | none => exact .inr rfl
    | some cell => exact .inl (List.mem_of_getElem? hi)
  obtain ⟨col, _, rfl⟩ := List.mem_map.mp h
  cases col <;> exact hcell _

theorem get_ofCells (cells : List String) (col : Column) :
    (ofCells cells).get col = cells[col.index]?.getD "" := by
  cases col <;> rfl

theorem isBlankText_get {row : Row} (h : row.isBlank = true) (col : Column) :
    isBlankText (row.get col).toList = true :=
  List.all_eq_true.mp h _ (List.mem_map_of_mem (Column.mem_all col))

@[simp] theorem isBlank_empty : empty.isBlank = true := by
  decide

end Row

end LessonGrid
