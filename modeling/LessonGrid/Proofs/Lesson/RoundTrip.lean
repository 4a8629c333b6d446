import LessonGrid.Proofs.Lesson.Fields
import LessonGrid.Proofs.Lesson.Lines

/-!
# A written lesson is read back

Rows that are written to a lesson file are read back, but for blank rows at the end, as long as no
cell holds a line feed: commas, quotation marks, blanks and carriage returns are kept by the quotes,
and rows that spell the headings are no header, since the first line of the file is. A line feed in a
cell is never read back, since no line of the file holds one.

Main statement: `parse_write_eq_ok_iff`.
-/

set_option autoImplicit false

namespace LessonGrid.Lesson

/-! ## Rows from lines -/

/-- Lines are read as rows when none has more fields than there are columns, each as the row of its
fields. -/
theorem rowsFrom_eq_ok_iff {line : Nat} {records : List (List (List Char))} {rows : List Row} :
    rowsFrom line records = .ok rows ↔ (∀ fields ∈ records, fields.length ≤ 5) ∧
      rows = records.map fun fields => Row.ofCells (fields.map String.ofList) := by
  induction records generalizing line rows with
  | nil => simp [rowsFrom, eq_comm]
  | cons fields rest ih =>
    unfold rowsFrom rowOf
    by_cases hlong : 5 < fields.length
    · have hfields : ¬ fields.length ≤ 5 := Nat.not_le_of_lt hlong
      simp only [hlong, if_true, List.forall_mem_cons, hfields, false_and, reduceCtorEq]
    · have hfields : fields.length ≤ 5 := Nat.le_of_not_lt hlong
      simp only [hlong, if_false, List.forall_mem_cons, hfields, true_and, List.map_cons]
      cases hrest : rowsFrom (line + 1) rest with
      | error fault =>
        have hnone : ¬ ∀ fields ∈ rest, fields.length ≤ 5 := by
          intro h
          have hok : rowsFrom (line + 1) rest = .ok _ := ih.mpr ⟨h, rfl⟩
          rw [hrest] at hok
          cases hok
        simp [hnone]
      | ok rows' =>
        obtain ⟨hrest', rfl⟩ := ih.mp hrest
        rw [Except.ok.injEq]
        exact ⟨fun h => ⟨hrest', h.symm⟩, fun h => h.2.symm⟩

/-- The lines that are read as rows are all the lines of the file, or all but the first one. -/
theorem exists_rowsFrom_of_rowsOf {records : List (List (List Char))} {rows : List Row}
    (h : rowsOf records = .ok rows) :
    ∃ line rest, rest <:+ records ∧ rowsFrom line rest = .ok rows := by
  unfold rowsOf at h
  split at h
  · exact ⟨1, [], List.suffix_refl [], h⟩
  · next fields rest =>
    split at h
    · exact ⟨2, rest, List.suffix_cons fields rest, h⟩
    · exact ⟨1, fields :: rest, List.suffix_refl _, h⟩

/-- A row of fields without line feeds has none in its cells. -/
theorem not_mem_of_mem_cells_ofCells {fields : List (List Char)} {cell : String}
    (h : cell ∈ (Row.ofCells (fields.map String.ofList)).cells)
    (hfields : ∀ field ∈ fields, '\n' ∉ field) : '\n' ∉ cell.toList := by
  rcases Row.mem_cells_ofCells h with hmem | rfl
  · obtain ⟨field, hfield, rfl⟩ := List.mem_map.mp hmem
    rw [String.toList_ofList]
    exact hfields field hfield
  · simp

/-- No cell of a row that is read holds a line feed. -/
theorem not_mem_of_parse {text : String} {rows : List Row} (h : parse text = .ok rows) :
    ∀ row ∈ rows, ∀ cell ∈ row.cells, '\n' ∉ cell.toList := by
  unfold parse at h
  split at h
  · cases h
  · next all hall =>
    cases h
    intro row hrow cell hcell
    obtain ⟨_, rest, hrest, hrows⟩ := exists_rowsFrom_of_rowsOf hall
    obtain ⟨_, rfl⟩ := rowsFrom_eq_ok_iff.mp hrows
    obtain ⟨fields, hfields, rfl⟩ := List.mem_map.mp (Grid.mem_rows_of_mem_usedRows hrow)
    obtain ⟨line, hline, rfl⟩ := List.mem_map.mp (hrest.mem hfields)
    refine not_mem_of_mem_cells_ofCells hcell fun field hfield hmem => ?_
    exact not_mem_of_mem_lines hline (Fields.mem_of_mem_split hfield hmem)

/-! ## Written rows -/

/-- The line of a row without its line feed. -/
def record (row : Row) : List Char :=
  Fields.joined (row.cells.map String.toList)

/-- The headings, which are written as fields that need no quotes. -/
def headings : List (List Char) :=
  Column.all.map fun col => col.heading.toList

theorem header_eq : header = Fields.joined headings ++ ['\n'] := by
  decide

theorem isHeader_headings : isHeader headings = true := by
  decide

theorem split_record (row : Row) : Fields.split (record row) = row.cells.map String.toList := by
  refine Fields.split_joined ?_
  rw [Ne, List.map_eq_nil_iff]
  exact List.cons_ne_nil _ _

/-- The line of a row holds no line feed when none of its cells does. -/
theorem not_mem_record {row : Row} (h : ∀ cell ∈ row.cells, '\n' ∉ cell.toList) :
    '\n' ∉ record row := by
  intro hmem
  rcases Fields.mem_of_mem_joined hmem with ⟨field, hfield, hc⟩ | hc | hc
  · obtain ⟨cell, hcell, rfl⟩ := List.mem_map.mp hfield
    exact h cell hcell hc
  · exact absurd hc (by decide)
  · exact absurd hc (by decide)

/-- The line of some fields does not end with a carriage return. -/
theorem dropReturn_joined (fields : List (List Char)) :
    dropReturn (Fields.joined fields) = Fields.joined fields := by
  refine dropReturn_of_getLast? ?_
  intro hlast
  have hblank := Fields.isBlank_of_getLast?_joined hlast
  exact absurd hblank (by decide)

/-- A lesson file is the line of the headings and the lines of the used rows, each with a line feed
behind it. -/
theorem toList_write (rows : List Row) : (write rows).toList =
    (Fields.joined headings :: (Grid.mk rows).usedRows.map record).flatMap (· ++ ['\n']) := by
  rw [write, String.toList_ofList, header_eq, List.flatMap_cons, List.flatMap_map]
  rfl

/-- The lines of a lesson file without line feeds in its cells, one for the headings and one for each
used row. -/
theorem lines_write {rows : List Row}
    (h : ∀ row ∈ (Grid.mk rows).usedRows, ∀ cell ∈ row.cells, '\n' ∉ cell.toList) :
    lines (write rows).toList = Fields.joined headings :: (Grid.mk rows).usedRows.map record := by
  have hpieces : ∀ piece ∈ Fields.joined headings :: (Grid.mk rows).usedRows.map record,
      '\n' ∉ piece := by
    refine List.forall_mem_cons.mpr ⟨by decide, ?_⟩
    intro piece hpiece
    obtain ⟨row, hrow, rfl⟩ := List.mem_map.mp hpiece
    exact not_mem_record (h row hrow)
  rw [toList_write, lines_flatMap hpieces, List.map_cons, List.map_map, dropReturn_joined]
  congr 1
  exact List.map_congr_left fun row _ => dropReturn_joined _

theorem ofCells_map_toList (row : Row) :
    Row.ofCells ((row.cells.map String.toList).map String.ofList) = row := by
  simp

/-- Rows without line feeds in their cells are read back up to the last one that is not blank. -/
theorem parse_write_of_not_mem {rows : List Row}
    (h : ∀ row ∈ (Grid.mk rows).usedRows, ∀ cell ∈ row.cells, '\n' ∉ cell.toList) :
    parse (write rows) = .ok (Grid.mk rows).usedRows := by
  obtain ⟨_, _, _, hlast⟩ := (Grid.mk rows).exists_rows_eq_usedRows_append
  generalize hused : (Grid.mk rows).usedRows = used at h hlast
  have hfields : (lines (write rows).toList).map Fields.split =
      headings :: used.map fun row => row.cells.map String.toList := by
    rw [lines_write (hused ▸ h), hused, List.map_cons, List.map_map,
      Fields.split_joined (by decide : headings ≠ [])]
    congr 1
    exact List.map_congr_left fun row _ => split_record row
  have hrows : rowsFrom 2 (used.map fun row => row.cells.map String.toList) = .ok used := by
    refine rowsFrom_eq_ok_iff.mpr ⟨?_, ?_⟩
    · intro fields hmem
      obtain ⟨row, _, rfl⟩ := List.mem_map.mp hmem
      have hlength : (row.cells.map String.toList).length = 5 := by
        rw [List.length_map, Row.length_cells]
      exact Nat.le_of_eq hlength.symm
    · rw [List.map_map, eq_comm]
      exact (List.map_congr_left fun row _ => ofCells_map_toList row).trans (List.map_id used)
  simp only [parse, hfields, rowsOf, isHeader_headings, if_true, hrows]
  rw [Grid.usedRows_of_getLast? hlast]

/-- Rows are written without the blank ones at the end, and the rest is read back exactly when none of
its cells holds a line feed. Cells may hold anything else: commas, quotation marks, blanks at either
end, carriage returns, nothing at all, or the headings. -/
theorem parse_write_eq_ok_iff (rows : List Row) :
    ∃ used blanks, rows = used ++ blanks ∧ (∀ row ∈ blanks, row.isBlank = true) ∧
      (∀ row, used.getLast? = some row → row.isBlank = false) ∧
      (parse (write rows) = .ok used ↔
        ∀ row ∈ used, ∀ cell ∈ row.cells, '\n' ∉ cell.toList) := by
  obtain ⟨blanks, hrows, hblanks, hlast⟩ := (Grid.mk rows).exists_rows_eq_usedRows_append
  refine ⟨(Grid.mk rows).usedRows, blanks, hrows, hblanks, hlast, ?_, ?_⟩
  · exact fun h => not_mem_of_parse h
  · exact fun h => parse_write_of_not_mem h

end LessonGrid.Lesson
