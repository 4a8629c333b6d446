import Mathlib
import LessonGrid.Exercise.Storage
import LessonGrid.Proofs.Exercise.Edit
import LessonGrid.Proofs.Lesson.RoundTrip
import LessonGrid.Proofs.Storage.Written

/-!
# A saved exercise is loaded again

What is saved is the used rows of an exercise, and what is loaded is an exercise of the rows of a
lesson file, filled up with empty ones. So the lesson comes back as long as its file can be read row by
row: there is a used row at all, and no cell of the used rows holds a line feed, since a line of the
file is a row. A lesson file never has line feeds in its cells; only an edit can put one there.

Main statement: `load_after_save`.
-/

set_option autoImplicit false

namespace LessonGrid

/-! ## Line feeds -/

/-- No cell of the rows holds a line feed. -/
def FreeOfLineFeeds (rows : List Row) : Prop :=
  ∀ row ∈ rows, ∀ cell ∈ row.cells, '\n' ∉ cell.toList

/-- The text of a cell is among the texts of its row. -/
theorem Grid.mem_cells_of_raw? {g : Grid} {a : Address} {text : String}
    (h : g.raw? a = some text) : ∃ row ∈ g.rows, text ∈ row.cells := by
  simp only [raw?, Option.bind_eq_bind, Option.bind_eq_some_iff] at h
  obtain ⟨col, _, row, hrow, htext⟩ := h
  cases htext
  exact ⟨row, List.mem_of_getElem? hrow, List.mem_map_of_mem (Column.mem_all col)⟩

namespace Exercise

variable {ex edited start : Exercise} {a : Address} {path text : String}

/-- The exercise after some edits one after the other, each of which has to succeed. -/
def editAll (ex : Exercise) : List (Address × String) → Except LessonFault Exercise
  | [] => .ok ex
  | (a, text) :: edits =>
    match ex.edit a text with
    | .error fault => .error fault
    | .ok (edited, _) => edited.editAll edits

/-- An edit that succeeds puts its text into its cell. -/
theorem eq_write_of_edit {found : Option (List Address)} (h : ex.edit a text = .ok (edited, found)) :
    edited = ex.write a text := by
  cases hraw : ex.raw? a with
  | none => simp [edit, hraw] at h
  | some old =>
    rw [edit_of_raw? hraw] at h
    cases h
    rfl

theorem freeOfLineFeeds_write (hrows : FreeOfLineFeeds ex.grid.rows) (htext : '\n' ∉ text.toList) :
    FreeOfLineFeeds (ex.write a text).grid.rows := by
  intro row hrow cell hcell
  rcases Grid.mem_cells_of_mem_set hrow hcell with rfl | ⟨before, hbefore, hcell⟩
  · exact htext
  · exact hrows before hbefore cell hcell

/-- Edits with texts that have no line feeds bring none into the grid. -/
theorem freeOfLineFeeds_of_editAll {edits : List (Address × String)}
    (h : start.editAll edits = .ok ex) (hstart : FreeOfLineFeeds start.grid.rows)
    (htexts : ∀ edit ∈ edits, '\n' ∉ edit.2.toList) : FreeOfLineFeeds ex.grid.rows := by
  induction edits generalizing start with
  | nil =>
    cases h
    exact hstart
  | cons edit edits ih =>
    obtain ⟨hedit, hedits⟩ := List.forall_mem_cons.mp htexts
    unfold editAll at h
    split at h
    · cases h
    · next edited found hok =>
      refine ih h ?_ hedits
      rw [eq_write_of_edit hok]
      exact freeOfLineFeeds_write hstart hedit

theorem freeOfLineFeeds_fill {rows : List Row} (h : FreeOfLineFeeds rows) :
    FreeOfLineFeeds (fill rows) := by
  intro row hrow
  rcases List.mem_append.mp hrow with hrow | hrow
  · exact h row (List.mem_of_mem_take hrow)
  · rw [List.eq_of_mem_replicate hrow]
    decide

/-! ## The exercise of a lesson file -/

theorem ofLesson_of_parse_nil (h : Lesson.parse text = .ok []) :
    ofLesson path text = .error .emptyLesson := by
  simp only [ofLesson, h]

theorem ofLesson_of_parse {rows : List Row} (h : Lesson.parse text = .ok rows) (hrows : rows ≠ []) :
    ofLesson path text = .ok { ofRows rows with file := some path } := by
  cases rows with
  | nil => exact absurd rfl hrows
  | cons row rows => simp only [ofLesson, h]

/-- A lesson file has no line feeds in its cells. -/
theorem freeOfLineFeeds_of_ofLesson (h : ofLesson path text = .ok ex) :
    FreeOfLineFeeds ex.grid.rows := by
  unfold ofLesson at h
  split at h
  · cases h
  · cases h
  · next rows hne hrows =>
    cases h
    exact freeOfLineFeeds_fill (Lesson.not_mem_of_parse hrows)

/-! ## The same lesson -/

/-- Both exercises have the same number of used rows, and the same texts in the cells of these rows. -/
def SameLesson (ex other : Exercise) : Prop :=
  other.usedCount = ex.usedCount ∧
    ∀ a : Address, a.row.toNat < ex.usedCount → other.raw? a = ex.raw? a

/-- An exercise filled up from the used rows of another one has the same lesson. -/
theorem sameLesson_of_rows_eq_fill {other : Exercise}
    (h : other.grid.rows = fill ex.grid.usedRows) : ex.SameLesson other := by
  have hlength : ex.grid.usedRows.length ≤ exerciseRows := by
    rw [← ex.length_rows]
    exact ex.grid.length_usedRows_le
  rw [fill, List.take_of_length_le hlength] at h
  generalize hempty : List.replicate (exerciseRows - ex.grid.usedRows.length) Row.empty = empty at h
  have hblank : ∀ row ∈ empty, row.isBlank = true := by
    intro row hrow
    rw [← hempty] at hrow
    rw [List.eq_of_mem_replicate hrow, Row.isBlank_empty]
  constructor
  · have hused : other.grid.usedRows = ex.grid.usedRows := calc
      other.grid.usedRows = (Grid.mk (ex.grid.usedRows ++ empty)).usedRows := by rw [← h]
      _ = (Grid.mk ex.grid.usedRows).usedRows := Grid.usedRows_append_of_isBlank hblank
      _ = ex.grid.usedRows := ex.grid.usedRows_usedRows
    rw [usedCount, hused, usedCount]
  · intro a ha
    obtain ⟨blanks, hrows, _⟩ := ex.grid.exists_rows_eq_usedRows_append
    have hrow : other.grid.rows[a.row.toNat]? = ex.grid.rows[a.row.toNat]? := by
      rw [h, hrows, List.getElem?_append_left ha, List.getElem?_append_left ha]
    simp only [raw?, Grid.raw?, hrow]

/-! ## Saving and loading -/

section Files

variable {σ : Type} {files : FileAccess (StateM σ)} {saved : Exercise} {s s' : σ}

/-- An exercise is saved by writing its lesson to its file. -/
theorem write_of_save (hfile : ex.file = some path)
    (hsave : (ex.save files).run s = (.ok saved, s')) :
    (files.write path (encodeText ex.lesson)).run s = (.ok (), s') := by
  simp only [save, hfile, FileAccess.writeText, StateT.run_bind] at hsave
  cases hwrite : (files.write path (encodeText ex.lesson)).run s with
  | mk outcome written =>
    rw [hwrite] at hsave
    cases outcome with
    | error fault => cases hsave
    | ok _ => cases hsave; rfl

/-- What is loaded is the exercise of the text that is read, and loading leaves what reading does. -/
theorem load_run (files : FileAccess (StateM σ)) (path : String) (s : σ) :
    (load files path).run s =
      (match ((files.readText path).run s).1 with
        | .error fault => .error (.file fault)
        | .ok text => ofLesson path text, ((files.readText path).run s).2) := by
  cases hread : (files.readText path).run s with
  | mk outcome after =>
    unfold load
    rw [run_bind_of_run hread]
    cases outcome <;> rfl

/-- Loading a file that has the bytes of a text gives the exercise of the text. -/
theorem load_of_read (hread : ((files.read path).run s).1 = .ok (encodeText text)) :
    ((load files path).run s).1 = ofLesson path text := by
  have htext : (Except.ok (encodeText text)).bind decodeText = .ok text := decodeText_encodeText text
  rw [load_run, files.readText_run, hread, htext]

/-- An exercise without used rows is saved as a file without rows, and such a file is refused. Where
there is a used row and no cell of the used rows holds a line feed, the exercise that is loaded after
saving has the same lesson. -/
theorem ofLesson_lesson (ex : Exercise) (path : String) :
    (ex.usedCount = 0 → ofLesson path ex.lesson = .error .emptyLesson) ∧
    (ex.usedCount ≠ 0 → FreeOfLineFeeds ex.grid.usedRows →
      ∃ reloaded, ofLesson path ex.lesson = .ok reloaded ∧ reloaded.file = some path ∧
        ex.SameLesson reloaded) := by
  have hparse : FreeOfLineFeeds ex.grid.usedRows →
      Lesson.parse ex.lesson = .ok ex.grid.usedRows := Lesson.parse_write_of_not_mem
  constructor
  · intro hcount
    have hnil : ex.grid.usedRows = [] := List.eq_nil_of_length_eq_zero hcount
    rw [hnil] at hparse
    exact ofLesson_of_parse_nil (hparse fun _ hrow => absurd hrow List.not_mem_nil)
  · intro hcount hfree
    have hne : ex.grid.usedRows ≠ [] := List.length_pos_iff.mp (Nat.pos_of_ne_zero hcount)
    exact ⟨_, ofLesson_of_parse (hparse hfree) hne, rfl, sameLesson_of_rows_eq_fill rfl⟩

/-- After an exercise has been saved, loading its file again refuses it if it has no used row, and
otherwise gives back the same lesson as long as no cell of the used rows holds a line feed. None does
when the exercise comes from a lesson file by edits whose texts have no line feeds. -/
theorem load_after_save (hfiles : files.KeepsWritten) (hfile : ex.file = some path)
    (hsave : (ex.save files).run s = (.ok saved, s')) :
    (ex.usedCount = 0 → ((load files path).run s').1 = .error .emptyLesson) ∧
    (ex.usedCount ≠ 0 → FreeOfLineFeeds ex.grid.usedRows →
      ∃ reloaded, ((load files path).run s').1 = .ok reloaded ∧ reloaded.file = some path ∧
        ex.SameLesson reloaded) ∧
    ((∃ source text start edits, ofLesson source text = .ok start ∧ start.editAll edits = .ok ex ∧
        ∀ edit ∈ edits, '\n' ∉ edit.2.toList) → FreeOfLineFeeds ex.grid.usedRows) := by
  have hload : ((load files path).run s').1 = ofLesson path ex.lesson :=
    load_of_read (hfiles _ _ _ _ (write_of_save hfile hsave))
  obtain ⟨hblank, hused⟩ := ofLesson_lesson ex path
  rw [hload]
  refine ⟨hblank, hused, ?_⟩
  rintro ⟨source, text, start, edits, hstart, hedits, htexts⟩ row hrow
  have hfree := freeOfLineFeeds_of_editAll hedits (freeOfLineFeeds_of_ofLesson hstart) htexts
  exact hfree row (Grid.mem_rows_of_mem_usedRows hrow)

end Files

/-! ## In a folder -/

/-- In a folder an exercise is saved wherever its path leads to a file. -/
theorem save_run_of_locate {folder : Folder} {name : String} (hfile : ex.file = some path)
    (hname : folder.locate path = .ok name) : (ex.save Folder.access).run folder =
      (.ok { ex with modified := false }, folder.put name (encodeText ex.lesson)) := by
  have hwrite : (Folder.access.write path (encodeText ex.lesson)).run folder =
      (.ok (), folder.put name (encodeText ex.lesson)) := by
    simp only [Folder.access, StateT.run, Folder.write, hname]
  simp only [save, hfile, FileAccess.writeText, StateT.run_bind, hwrite]
  rfl

theorem editAll_singleton {old : String} (hraw : ex.raw? a = some old) :
    ex.editAll [(a, text)] = .ok (ex.write a text) := by
  simp only [editAll, edit_of_raw? hraw]

/-- A lesson of one row with its own file. -/
def rentLesson : Exercise :=
  { ofRows [⟨"Rent", "1200", "=B1*12", " a, b ", "\r"⟩] with file := some "l" }

theorem load_after_save_rentLesson :
    Folder.access.KeepsWritten ∧ rentLesson.file = some "l" ∧
    ∃ saved folder, (rentLesson.save Folder.access).run Folder.empty = (.ok saved, folder) ∧
      ∃ reloaded, ((load Folder.access "l").run folder).1 = .ok reloaded ∧
        reloaded.file = some "l" ∧ rentLesson.SameLesson reloaded := by
  have hname : Folder.empty.locate "l" = .ok "l" := by cbv
  have hfile : rentLesson.file = some "l" := rfl
  have hsave := save_run_of_locate hfile hname
  have hcount : rentLesson.usedCount ≠ 0 := by cbv
  have hfree : FreeOfLineFeeds rentLesson.grid.usedRows := by
    have hrows : rentLesson.grid.usedRows = [⟨"Rent", "1200", "=B1*12", " a, b ", "\r"⟩] := by cbv
    rw [hrows]
    intro row hrow
    rw [List.mem_singleton.mp hrow]
    decide
  exact ⟨Folder.access_keepsWritten, hfile, _, _, hsave,
    (load_after_save Folder.access_keepsWritten hfile hsave).2.1 hcount hfree⟩

/-- A lesson of one cell, as loaded from its file. -/
def oneCell : Exercise :=
  { ofRows [⟨"a", "", "", "", ""⟩] with file := some "l" }

/-- A cell that is edited to a text with a line feed does not come back after saving, and neither does
an exercise whose only cell has been emptied. -/
theorem load_after_save_of_line_feed_or_blank :
    ofLesson "l" "a" = .ok oneCell ∧
    (∃ ex saved folder, oneCell.editAll [(⟨0, 0⟩, "x\ny")] = .ok ex ∧
      (ex.save Folder.access).run Folder.empty = (.ok saved, folder) ∧
      ∀ reloaded, ((load Folder.access "l").run folder).1 = .ok reloaded →
        ¬ ex.SameLesson reloaded) ∧
    ∃ ex saved folder, oneCell.editAll [(⟨0, 0⟩, "")] = .ok ex ∧
      (ex.save Folder.access).run Folder.empty = (.ok saved, folder) ∧
      ((load Folder.access "l").run folder).1 = .error .emptyLesson := by
  have hparse : Lesson.parse "a" = .ok [⟨"a", "", "", "", ""⟩] := by cbv
  have hraw : oneCell.raw? ⟨0, 0⟩ = some "a" := by cbv
  have hname : Folder.empty.locate "l" = .ok "l" := by cbv
  have hload : ∀ ex : Exercise,
      ((load Folder.access "l").run
        (Folder.empty.put "l" (encodeText ex.lesson))).1 =
          ofLesson "l" ex.lesson := by
    intro ex
    refine load_of_read (Folder.access_keepsWritten _ _ Folder.empty _ ?_)
    simp only [Folder.access, StateT.run, Folder.write, hname]
  refine ⟨ofLesson_of_parse hparse (List.cons_ne_nil _ _), ?_, ?_⟩
  · refine ⟨_, _, _, editAll_singleton hraw, save_run_of_locate rfl hname, ?_⟩
    intro reloaded hreloaded hsame
    rw [hload] at hreloaded
    have hcell : (oneCell.write ⟨0, 0⟩ "x\ny").raw? ⟨0, 0⟩ = some "x\ny" := by cbv
    have hused : 0 < (oneCell.write ⟨0, 0⟩ "x\ny").usedCount := by cbv
    obtain ⟨row, hrow, hmem⟩ := Grid.mem_cells_of_raw? ((hsame.2 ⟨0, 0⟩ hused).trans hcell)
    exact freeOfLineFeeds_of_ofLesson hreloaded row hrow _ hmem (by decide)
  · refine ⟨_, _, _, editAll_singleton hraw, save_run_of_locate rfl hname, ?_⟩
    rw [hload]
    exact (ofLesson_lesson _ _).1 (by cbv)

end Exercise

end LessonGrid
