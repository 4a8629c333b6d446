import LessonGrid.Cell.Range
import LessonGrid.Grid.Row

/-!
# Grids

A grid is a list of rows, of any length. An address names a cell of the grid when its column is one
of the five and its row is among the rows; `Grid.raw?` is the text of such a cell.
-/

set_option autoImplicit false

namespace LessonGrid

/-- The rows from top to bottom. -/
structure Grid where
  rows : List Row
  deriving DecidableEq, Repr, Inhabited

namespace Grid

/-- The grid without rows. -/
def empty : Grid :=
  ⟨[]⟩

/-- The text of a cell; an address outside the grid has none. -/
def raw? (g : Grid) (a : Address) : Option String := do
  let col ← a.column?
  let row ← g.rows[a.row.toNat]?
  some (row.get col)

/-- The rows of the grid up to the last one that is not blank. -/
def usedRows (g : Grid) : List Row :=
  (g.rows.reverse.dropWhile Row.isBlank).reverse

/-- The addresses of the grid's cells, row by row. -/
def addresses (g : Grid) : List Address :=
  (List.range g.rows.length).flatMap fun row => Column.all.map fun col => Address.ofColumn col row

/-- The grid with another text in one cell. Outside the grid nothing changes. -/
def set (g : Grid) (a : Address) (text : String) : Grid :=
  match a.column? with
  | some col => ⟨g.rows.modify a.row.toNat fun row => row.set col text⟩
  | none => g

@[simp] theorem length_rows_set (g : Grid) (a : Address) (text : String) :
    (g.set a text).rows.length = g.rows.length := by
  unfold set
  split <;> simp

/-- After an edit a cell of the grid holds the new text, and every other address what it held. -/
theorem raw?_set (g : Grid) (a b : Address) (text : String) :
    (g.set a text).raw? b = if b = a then (g.raw? b).map fun _ => text else g.raw? b := by
  unfold set
  split
  · next col hcol =>
    by_cases hba : b = a
    · subst hba
      cases hrow : g.rows[b.row.toNat]? <;> simp [raw?, hcol, hrow]
    · rw [if_neg hba]
      cases hcolb : b.column? with
      | none => simp [raw?, hcolb]
      | some colb =>
        by_cases hrow : a.row.toNat = b.row.toNat
        · -- The two are cells of one row, so they differ in the column.
          have hne : colb ≠ col := by
            rintro rfl
            exact hba (Address.eq_of_column?_of_row hcolb hcol (UInt64.toNat_inj.mp hrow.symm))
          cases hrowb : g.rows[b.row.toNat]? <;>
            simp [raw?, hcolb, hrow, hrowb, Row.get_set_of_ne _ _ hne]
        · simp [raw?, hcolb, hrow]
  · next hcol =>
    split
    · next hba => simp [raw?, hba, hcol]
    · rfl

/-- The rows left out of the used ones are blank, and the last used row is not. -/
theorem exists_rows_eq_usedRows_append (g : Grid) :
    ∃ blanks, g.rows = g.usedRows ++ blanks ∧ (∀ row ∈ blanks, row.isBlank = true) ∧
      ∀ row, g.usedRows.getLast? = some row → row.isBlank = false := by
  refine ⟨(g.rows.reverse.takeWhile Row.isBlank).reverse, ?_, ?_, ?_⟩
  · rw [usedRows, ← List.reverse_append, List.takeWhile_append_dropWhile, List.reverse_reverse]
  · intro row hrow
    exact List.all_eq_true.mp List.all_takeWhile row (List.mem_reverse.mp hrow)
  · intro row hrow
    rw [usedRows, List.getLast?_reverse] at hrow
    have hhead := List.head?_dropWhile_not Row.isBlank g.rows.reverse
    rwa [hrow] at hhead

theorem mem_rows_of_mem_usedRows {g : Grid} {row : Row} (h : row ∈ g.usedRows) : row ∈ g.rows := by
  obtain ⟨blanks, hrows, _⟩ := g.exists_rows_eq_usedRows_append
  rw [hrows]
  exact List.mem_append_left blanks h

/-- All rows are used when the last one is not blank. -/
theorem usedRows_of_getLast? {rows : List Row}
    (h : ∀ row, rows.getLast? = some row → row.isBlank = false) : (mk rows).usedRows = rows := by
  have hdrop : rows.reverse.dropWhile Row.isBlank = rows.reverse := by
    cases hrows : rows.reverse with
    | nil => rfl
    | cons row rest =>
      have hlast : rows.getLast? = some row := by
        rw [← List.head?_reverse, hrows, List.head?_cons]
      exact List.dropWhile_cons_of_neg (by simp [h row hlast])
  rw [usedRows, hdrop, List.reverse_reverse]

theorem usedRows_usedRows (g : Grid) : (mk g.usedRows).usedRows = g.usedRows := by
  obtain ⟨_, _, _, hlast⟩ := g.exists_rows_eq_usedRows_append
  exact usedRows_of_getLast? hlast

theorem length_usedRows_le (g : Grid) : g.usedRows.length ≤ g.rows.length := by
  obtain ⟨blanks, hrows, _⟩ := g.exists_rows_eq_usedRows_append
  rw [hrows, List.length_append]
  exact Nat.le_add_right _ _

/-- Blank rows below make no difference to the used rows. -/
theorem usedRows_append_of_isBlank {rows blanks : List Row}
    (h : ∀ row ∈ blanks, row.isBlank = true) :
    (mk (rows ++ blanks)).usedRows = (mk rows).usedRows := by
  have hblanks : ∀ row ∈ blanks.reverse, row.isBlank = true := fun row hrow =>
    h row (List.mem_reverse.mp hrow)
  simp only [usedRows, List.reverse_append, List.dropWhile_append_of_pos hblanks]

/-- After an edit every text in the grid is the new one or has been there before. -/
theorem mem_cells_of_mem_set {g : Grid} {a : Address} {text cell : String} {row : Row}
    (hrow : row ∈ (g.set a text).rows) (hcell : cell ∈ row.cells) :
    cell = text ∨ ∃ before ∈ g.rows, cell ∈ before.cells := by
  unfold set at hrow
  split at hrow
  · next col hcol =>
    obtain ⟨i, hi⟩ := List.getElem?_of_mem hrow
    simp only [List.getElem?_modify] at hi
    obtain ⟨before, hbefore, rfl⟩ := Option.map_eq_some_iff.mp hi
    have hmem : before ∈ g.rows := List.mem_of_getElem? hbefore
    split at hcell
    · rcases Row.mem_cells_set hcell with rfl | hcell
      · exact .inl rfl
      · exact .inr ⟨before, hmem, hcell⟩
    · exact .inr ⟨before, hmem, hcell⟩
  · exact .inr ⟨row, hrow, hcell⟩

end Grid

end LessonGrid
