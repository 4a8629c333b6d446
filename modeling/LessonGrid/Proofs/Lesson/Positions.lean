import LessonGrid.Proofs.Lesson.RoundTrip

/-!
# Rows keep their places

A formula names a row by its place, so the rows of a lesson have to stand where the lines of its file
do. Behind a header, if there is one, every line becomes a row, blank lines too; only blank rows at the
end are left out. The first line with too many fields is the fault of the whole, and it is counted among
all lines of the file.

Main statements: `linesOf_iff`, `rowsFrom_eq_error_iff` and `parse_keeps_places`.
-/

set_option autoImplicit false

namespace LessonGrid.Lesson

/-! ## The lines of a text -/

/-- The lines of a text. Each line feed ends a line, which loses one carriage return at its end; text
behind the last line feed is a line as it stands, and no text is no line. -/
inductive LinesOf : List Char → List (List Char) → Prop
  | none : LinesOf [] []
  | last {line : List Char} : line ≠ [] → '\n' ∉ line → LinesOf line [line]
  | more {line rest : List Char} {others : List (List Char)} :
      '\n' ∉ line → LinesOf rest others → LinesOf (line ++ '\n' :: rest) (dropReturn line :: others)

theorem lines_of_not_mem {line : List Char} (hne : line ≠ []) (h : '\n' ∉ line) :
    lines line = [line] := by
  have hpieces : line.splitOn '\n' = [line] := List.splitOn_eq_singleton h
  simp [lines, hpieces, hne]

theorem linesOf_lines (text : List Char) : LinesOf text (lines text) := by
  induction hlength : text.length using Nat.strongRecOn generalizing text with
  | ind length ih =>
    by_cases hmem : '\n' ∈ text
    · obtain ⟨line, rest, rfl, hline⟩ := List.eq_append_cons_of_mem hmem
      rw [lines_append hline]
      refine .more hline (ih rest.length ?_ rest rfl)
      rw [← hlength, List.length_append, List.length_cons]
      omega
    · cases text with
      | nil => exact .none
      | cons c cs =>
        rw [lines_of_not_mem (List.cons_ne_nil c cs) hmem]
        exact .last (List.cons_ne_nil c cs) hmem

/-- A text has one list of lines, which is the one that is read. -/
theorem linesOf_iff {text : List Char} {found : List (List Char)} :
    LinesOf text found ↔ found = lines text := by
  constructor
  · intro h
    induction h with
    | none => rfl
    | last hne hline => rw [lines_of_not_mem hne hline]
    | more hline _ ih => rw [lines_append hline, ih]
  · rintro rfl
    exact linesOf_lines text

/-! ## The header -/

/-- The fields are five and are the headings of the columns, the case of ASCII letters aside. -/
def NamesColumns (fields : List (List Char)) : Prop :=
  fields.length = 5 ∧ ∀ col : Column, ∃ field, fields[col.index]? = some field ∧
    field.map Char.toLower = col.heading.toList

theorem isHeader_iff {fields : List (List Char)} : isHeader fields = true ↔ NamesColumns fields := by
  unfold isHeader NamesColumns
  rw [beq_iff_eq]
  constructor
  · intro h
    refine ⟨by simpa [Column.all] using congrArg List.length h, fun col => ?_⟩
    have hcol : Column.all[col.index]? = some col := Column.ofIndex?_index col
    have hget : (fields.map (·.map Char.toLower))[col.index]? =
        (Column.all.map fun col => col.heading.toList)[col.index]? := by rw [h]
    rw [List.getElem?_map, List.getElem?_map, hcol] at hget
    exact Option.map_eq_some_iff.mp hget
  · rintro ⟨hlength, hall⟩
    refine List.ext_getElem? fun i => ?_
    by_cases hi : i < 5
    · obtain ⟨col, hcol⟩ := Option.isSome_iff_exists.mp (Column.ofIndex?_isSome_iff.mpr hi)
      obtain ⟨field, hfield, hheading⟩ := hall col
      rw [Column.ofIndex?_eq_some_iff.mp hcol] at hfield
      have hcol : Column.all[i]? = some col := hcol
      rw [List.getElem?_map, List.getElem?_map, hfield, hcol, Option.map_some, Option.map_some,
        hheading]
    · rw [List.getElem?_eq_none (by simpa [hlength] using hi),
        List.getElem?_eq_none (by simpa [Column.all] using hi)]

/-- How many lines stand in front of the rows: one if the first line is a header. -/
def rowsStart : List (List Char) → Nat
  | [] => 0
  | first :: _ => if isHeader (Fields.split first) then 1 else 0

/-- The first line is a header exactly when it names the columns. -/
theorem rowsStart_cases (found : List (List Char)) :
    rowsStart found = 1 ∧ (∃ first rest, found = first :: rest ∧ NamesColumns (Fields.split first)) ∨
      rowsStart found = 0 ∧
        ∀ first rest, found = first :: rest → ¬ NamesColumns (Fields.split first) := by
  cases found with
  | nil => exact .inr ⟨rfl, fun first rest h => by cases h⟩
  | cons first rest =>
    by_cases hheader : isHeader (Fields.split first) = true
    · exact .inl ⟨if_pos hheader, first, rest, rfl, isHeader_iff.mp hheader⟩
    · refine .inr ⟨if_neg hheader, fun _ _ h => ?_⟩
      cases h
      exact fun hnames => hheader (isHeader_iff.mpr hnames)

/-- All lines behind the header are rows, and the first of them is counted with the header in mind. -/
theorem rowsOf_eq (found : List (List Char)) : rowsOf (found.map Fields.split) =
    rowsFrom (rowsStart found + 1) ((found.drop (rowsStart found)).map Fields.split) := by
  cases found with
  | nil => rfl
  | cons first rest =>
    rw [List.map_cons, rowsOf, rowsStart]
    split
    · rfl
    · rfl

/-! ## The first line with too many fields -/

theorem rowsFrom_cons_of_wide {fields : List (List Char)} (h : 5 < fields.length) (line : Nat)
    (rest : List (List (List Char))) :
    rowsFrom line (fields :: rest) = .error (.tooManyFields line fields.length) := by
  simp only [rowsFrom, rowOf, h, if_true]

theorem rowsFrom_cons_eq_error_iff {fields : List (List Char)} (h : ¬ 5 < fields.length) {line : Nat}
    {rest : List (List (List Char))} {fault : LessonFault} :
    rowsFrom line (fields :: rest) = .error fault ↔ rowsFrom (line + 1) rest = .error fault := by
  simp only [rowsFrom, rowOf, h, if_false]
  cases rowsFrom (line + 1) rest <;> simp

/-- Reading rows fails at the first record with more fields than there are columns, and at no other
one. -/
theorem rowsFrom_eq_error_iff {line : Nat} {records : List (List (List Char))} {fault : LessonFault} :
    rowsFrom line records = .error fault ↔ ∃ i fields, records[i]? = some fields ∧
      5 < fields.length ∧ (∀ j < i, ∀ other, records[j]? = some other → other.length ≤ 5) ∧
      fault = .tooManyFields (line + i) fields.length := by
  induction records generalizing line with
  | nil => simp [rowsFrom]
  | cons fields rest ih =>
    by_cases hwide : 5 < fields.length
    · rw [rowsFrom_cons_of_wide hwide, Except.error.injEq]
      constructor
      · rintro rfl
        exact ⟨0, fields, rfl, hwide, fun j hj => absurd hj (Nat.not_lt_zero j), rfl⟩
      · rintro ⟨i, other, hother, _, hbefore, rfl⟩
        cases i with
        | zero =>
          cases hother
          rfl
        | succ i => exact absurd hwide (Nat.not_lt_of_le (hbefore 0 (Nat.succ_pos i) fields rfl))
    · rw [rowsFrom_cons_eq_error_iff hwide, ih]
      constructor
      · rintro ⟨i, other, hother, hlong, hbefore, rfl⟩
        refine ⟨i + 1, other, hother, hlong, ?_, by rw [Nat.add_right_comm, Nat.add_assoc]⟩
        intro j hj narrow hnarrow
        cases j with
        | zero =>
          cases hnarrow
          exact Nat.le_of_not_lt hwide
        | succ j => exact hbefore j (Nat.lt_of_succ_lt_succ hj) narrow hnarrow
      · rintro ⟨i, other, hother, hlong, hbefore, rfl⟩
        cases i with
        | zero =>
          cases hother
          exact absurd hlong hwide
        | succ i =>
          refine ⟨i, other, hother, hlong, ?_, by rw [Nat.add_right_comm, Nat.add_assoc]⟩
          exact fun j hj => hbefore (j + 1) (Nat.succ_lt_succ hj)

/-! ## Rows and lines -/

/-- The row has the fields of the line in its cells, from left to right, and nothing in the cells for
which the line has no field. -/
def HoldsFields (row : Row) (line : List Char) : Prop :=
  ∀ col : Column, (row.get col).toList = ((Fields.split line)[col.index]?).getD []

/-- The row of the fields of a line. -/
def rowOfLine (line : List Char) : Row :=
  Row.ofCells ((Fields.split line).map String.ofList)

theorem holdsFields_rowOfLine (line : List Char) : HoldsFields (rowOfLine line) line := by
  intro col
  rw [rowOfLine, Row.get_ofCells, List.getElem?_map]
  cases (Fields.split line)[col.index]? <;> simp

/-- A blank row is the row of a line whose fields are all blank, if the line has no field too many. -/
theorem HoldsFields.isBlankText {row : Row} {line field : List Char} (h : HoldsFields row line)
    (hblank : row.isBlank = true) (hnarrow : (Fields.split line).length ≤ 5)
    (hfield : field ∈ Fields.split line) : isBlankText field = true := by
  obtain ⟨i, hi⟩ := List.getElem?_of_mem hfield
  have hlt : i < 5 := Nat.lt_of_lt_of_le (List.getElem?_eq_some_iff.mp hi).1 hnarrow
  obtain ⟨col, hcol⟩ := Option.isSome_iff_exists.mp (Column.ofIndex?_isSome_iff.mpr hlt)
  have hcell := h col
  rw [Column.ofIndex?_eq_some_iff.mp hcol, hi, Option.getD_some] at hcell
  exact hcell ▸ Row.isBlankText_get hblank col

variable {text : String} {found : List (List Char)} {start : Nat}

/-- The line at a place, behind the header, has more fields than there are columns, and no line before
it, behind the header, has. -/
def FirstWide (found : List (List Char)) (start i : Nat) (line : List Char) : Prop :=
  start ≤ i ∧ found[i]? = some line ∧ 5 < (Fields.split line).length ∧
    ∀ j other, start ≤ j → j < i → found[j]? = some other → (Fields.split other).length ≤ 5

theorem parse_eq_error_iff {fault : LessonFault} (hfound : found = lines text.toList)
    (hstart : start = rowsStart found) : parse text = .error fault ↔
      ∃ i line, FirstWide found start i line ∧
        fault = .tooManyFields (i + 1) (Fields.split line).length := by
  have hrows : parse text = .error fault ↔
      rowsFrom (start + 1) ((found.drop start).map Fields.split) = .error fault := by
    rw [parse, ← hfound, rowsOf_eq, ← hstart]
    cases rowsFrom (start + 1) ((found.drop start).map Fields.split) <;> simp
  have hline : ∀ i, ((found.drop start).map Fields.split)[i]? = found[start + i]?.map Fields.split :=
    fun i => by rw [List.getElem?_map, List.getElem?_drop]
  rw [hrows, rowsFrom_eq_error_iff]
  simp only [hline, Option.map_eq_some_iff]
  constructor
  · rintro ⟨i, _, ⟨line, hi, rfl⟩, hwide, hbefore, rfl⟩
    refine ⟨start + i, line, ⟨Nat.le_add_right start i, hi, hwide, ?_⟩, by rw [Nat.add_right_comm]⟩
    intro j other hj hji hother
    obtain ⟨j, rfl⟩ := Nat.exists_eq_add_of_le hj
    exact hbefore j (Nat.lt_of_add_lt_add_left hji) _ ⟨other, hother, rfl⟩
  · rintro ⟨i, line, ⟨hi, hget, hwide, hbefore⟩, rfl⟩
    obtain ⟨i, rfl⟩ := Nat.exists_eq_add_of_le hi
    refine ⟨i, _, ⟨line, hget, rfl⟩, hwide, ?_, by rw [Nat.add_right_comm]⟩
    rintro j hji _ ⟨other, hother, rfl⟩
    exact hbefore (start + j) other (Nat.le_add_right start j) (Nat.add_lt_add_left hji start) hother

/-- There is a first line among those with too many fields. -/
theorem exists_firstWide {i : Nat} {line : List Char} (hi : start ≤ i) (hget : found[i]? = some line)
    (hwide : 5 < (Fields.split line).length) : ∃ i line, FirstWide found start i line := by
  induction i using Nat.strongRecOn generalizing line with
  | ind i ih =>
    by_cases hfirst : ∃ j other, start ≤ j ∧ j < i ∧ found[j]? = some other ∧
        5 < (Fields.split other).length
    · obtain ⟨j, other, hj, hji, hother, hlong⟩ := hfirst
      exact ih j hji hj hother hlong
    · refine ⟨i, line, hi, hget, hwide, fun j other hj hji hother => Nat.le_of_not_lt fun hlong => ?_⟩
      exact hfirst ⟨j, other, hj, hji, hother, hlong⟩

/-- Without a line that is too wide the rows are those of all lines behind the header, less the blank
ones at the end. -/
theorem parse_of_narrow (hfound : found = lines text.toList) (hstart : start = rowsStart found)
    (hnarrow : ∀ i line, start ≤ i → found[i]? = some line → (Fields.split line).length ≤ 5) :
    parse text = .ok (Grid.mk ((found.drop start).map rowOfLine)).usedRows := by
  have hrows : rowsFrom (start + 1) ((found.drop start).map Fields.split) =
      .ok ((found.drop start).map rowOfLine) := by
    refine rowsFrom_eq_ok_iff.mpr ⟨fun fields hfields => ?_, by rw [List.map_map]; rfl⟩
    obtain ⟨line, hline, rfl⟩ := List.mem_map.mp hfields
    obtain ⟨i, hi⟩ := List.getElem?_of_mem hline
    rw [List.getElem?_drop] at hi
    exact hnarrow (start + i) line (Nat.le_add_right start i) hi
  rw [parse, ← hfound, rowsOf_eq, ← hstart, hrows]

/-- Rows keep the places of their lines, and only blank lines at the end have no row. -/
def KeepsPlaces (rows : List Row) (found : List (List Char)) (start : Nat) : Prop :=
  (∀ k row, rows[k]? = some row → ∃ line, found[start + k]? = some line ∧ HoldsFields row line) ∧
    (∀ k line, rows.length ≤ k → found[start + k]? = some line →
      ∀ field ∈ Fields.split line, isBlankText field = true) ∧
    ∀ row, rows.getLast? = some row → row.isBlank = false

theorem keepsPlaces_usedRows
    (hnarrow : ∀ i line, start ≤ i → found[i]? = some line → (Fields.split line).length ≤ 5) :
    KeepsPlaces (Grid.mk ((found.drop start).map rowOfLine)).usedRows found start := by
  obtain ⟨blanks, hrows, hblanks, hlast⟩ :=
    (Grid.mk ((found.drop start).map rowOfLine)).exists_rows_eq_usedRows_append
  generalize (Grid.mk _).usedRows = used at hrows hlast ⊢
  have hget : ∀ k, (used ++ blanks)[k]? = found[start + k]?.map rowOfLine := by
    intro k
    rw [← hrows, List.getElem?_map, List.getElem?_drop]
  refine ⟨fun k row hrow => ?_, fun k line hk hline field hfield => ?_, hlast⟩
  · have hk := hget k
    rw [List.getElem?_append_left (List.getElem?_eq_some_iff.mp hrow).1, hrow] at hk
    obtain ⟨line, hline, rfl⟩ := Option.map_eq_some_iff.mp hk.symm
    exact ⟨line, hline, holdsFields_rowOfLine line⟩
  · have hrow := hget k
    rw [List.getElem?_append_right hk, hline] at hrow
    exact (holdsFields_rowOfLine line).isBlankText (hblanks _ (List.mem_of_getElem? hrow))
      (hnarrow (start + k) line (Nat.le_add_right start k) hline) hfield

/-- Whatever a text holds, it has one list of lines, the first of which may be the header. Reading it as a
lesson fails if and only if a line behind the header has too many fields, and what is reported is the
first of these with its number among all lines, counted from one. Otherwise the row at a place has the
fields of the line at this place behind the header, and only blank rows at the end are left out. -/
theorem parse_keeps_places (text : String) : ∃ (found : List (List Char)) (start : Nat),
    (∀ others, LinesOf text.toList others ↔ others = found) ∧
    (start = 1 ∧ (∃ first rest, found = first :: rest ∧ NamesColumns (Fields.split first)) ∨
      start = 0 ∧ ∀ first rest, found = first :: rest → ¬ NamesColumns (Fields.split first)) ∧
    ((∃ fault, parse text = .error fault) ↔
      ∃ i line, start ≤ i ∧ found[i]? = some line ∧ 5 < (Fields.split line).length) ∧
    (∀ fault, parse text = .error fault ↔ ∃ i line, FirstWide found start i line ∧
      fault = .tooManyFields (i + 1) (Fields.split line).length) ∧
    ((∀ i line, start ≤ i → found[i]? = some line → (Fields.split line).length ≤ 5) →
      ∃ rows, parse text = .ok rows ∧ KeepsPlaces rows found start) := by
  refine ⟨lines text.toList, rowsStart (lines text.toList), fun others => linesOf_iff,
    rowsStart_cases _, ?_, fun fault => parse_eq_error_iff rfl rfl, fun hnarrow => ?_⟩
  · constructor
    · rintro ⟨fault, h⟩
      obtain ⟨i, line, ⟨hi, hget, hwide, _⟩, _⟩ := (parse_eq_error_iff rfl rfl).mp h
      exact ⟨i, line, hi, hget, hwide⟩
    · rintro ⟨i, line, hi, hget, hwide⟩
      obtain ⟨i, line, hfirst⟩ := exists_firstWide hi hget hwide
      exact ⟨_, (parse_eq_error_iff rfl rfl).mpr ⟨i, line, hfirst, rfl⟩⟩
  · exact ⟨_, parse_of_narrow rfl rfl hnarrow, keepsPlaces_usedRows hnarrow⟩

/-- Behind a header the third line is the second row, blank or not, and the last line has no row. -/
example : parse "NAME,Val1,c,d,e\r\nrent,12\n\nfood,=B1*2\n , \n" =
    .ok [⟨"rent", "12", "", "", ""⟩, Row.empty, ⟨"food", "=B1*2", "", "", ""⟩] :=
  rfl

end LessonGrid.Lesson
