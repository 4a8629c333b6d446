import Mathlib
import LessonGrid.Exercise.Table
import LessonGrid.Proofs.Evaluation.Finite
import LessonGrid.Proofs.Exercise.Reload

/-!
# Tables are read back

The rows of a table are read back cell by cell. A line is cut at its bars, but for those behind a
backslash, which belong to a cell (`cutAtBars`); the blanks around a cell are dropped, and each
backslash with a bar behind it stands for the bar (`unescapeBars`). Neither a backslash at the end of a
cell nor one before a bar of its own gets in the way: the first has a blank behind it, the second the
backslash of the bar.

A row stays on its line because no cell of a lesson shows a line feed.

Main statements: `cutAtBars_barLine` and `table_read_back`.
-/

set_option autoImplicit false

namespace LessonGrid

/-! ## Cutting lines -/

/-- The pieces of the rest of a line, cut at its bars. A bar right behind a backslash is no cut; the
rest may start behind one. -/
def cutFrom (behindBackslash : Bool) : List Char → List (List Char)
  | [] => [[]]
  | c :: cs =>
    if c = '|' ∧ behindBackslash = false then [] :: cutFrom false cs
    else (cutFrom (c = '\\') cs).modifyHead (c :: ·)

/-- The pieces of a line between those bars that do not stand right behind a backslash. -/
def cutAtBars (line : List Char) : List (List Char) :=
  cutFrom false line

/-- A text with a bar in place of each backslash that has a bar behind it, and of this bar. -/
def unescapeBars : List Char → List Char
  | [] => []
  | '\\' :: '|' :: cs => '|' :: unescapeBars cs
  | c :: cs => c :: unescapeBars cs

/-- A line of a table without its line feed. -/
def barLine (pieces : List (List Char)) : List Char :=
  '|' :: pieces.flatMap fun piece => ' ' :: piece ++ [' ', '|']

/-- A text does not start with a bar once its bars have been escaped. -/
theorem head?_escapeBars_ne (cs : List Char) : (escapeBars cs).head? ≠ some '|' := by
  fun_cases escapeBars cs with
  | case1 => simp
  | case2 cs => simp
  | case3 c cs hbar => simpa using hbar

theorem unescapeBars_cons {c : Char} {cs : List Char} (h : cs.head? ≠ some '|') :
    unescapeBars (c :: cs) = c :: unescapeBars cs := by
  rw [unescapeBars]
  rintro ds - rfl
  exact h rfl

/-- Escaped bars are read back. -/
theorem unescapeBars_escapeBars (cs : List Char) : unescapeBars (escapeBars cs) = cs := by
  fun_induction escapeBars cs with
  | case1 => rfl
  | case2 cs ih => rw [unescapeBars, ih]
  | case3 c cs _ ih => rw [unescapeBars_cons (head?_escapeBars_ne cs), ih]

theorem escapeBars_of_not_mem {cs : List Char} (h : '|' ∉ cs) : escapeBars cs = cs := by
  fun_induction escapeBars cs with
  | case1 => rfl
  | case2 cs ih => exact absurd List.mem_cons_self h
  | case3 c cs _ ih => rw [ih fun hmem => h (List.mem_cons_of_mem c hmem)]

/-- An escaped text with a blank behind it is one piece up to the next bar, wherever it stands. -/
theorem cutFrom_escapeBars (cs rest : List Char) (behindBackslash : Bool) :
    cutFrom behindBackslash (escapeBars cs ++ ' ' :: '|' :: rest) =
      (escapeBars cs ++ [' ']) :: cutFrom false rest := by
  fun_induction escapeBars cs generalizing behindBackslash with
  | case1 => simp [cutFrom]
  | case2 cs ih => simp [cutFrom, ih]
  | case3 c cs hbar ih =>
    have hcut : ¬ (c = '|' ∧ behindBackslash = false) := fun h => hbar h.1
    rw [List.cons_append, cutFrom, if_neg hcut, ih, List.modifyHead_cons, List.cons_append]

/-- A line of escaped texts is cut into these, each between blanks, and nothing in front of the first
bar and behind the last one. -/
theorem cutAtBars_barLine (texts : List (List Char)) :
    cutAtBars (barLine (texts.map escapeBars)) =
      [] :: (texts.map escapeBars).map (fun piece => ' ' :: piece ++ [' ']) ++ [[]] := by
  have hpieces : cutFrom false
      ((texts.map escapeBars).flatMap fun piece => ' ' :: piece ++ [' ', '|']) =
        (texts.map escapeBars).map (fun piece => ' ' :: piece ++ [' ']) ++ [[]] := by
    induction texts with
    | nil => rfl
    | cons cs texts ih =>
      have hfirst : ∀ rest, (' ' :: escapeBars cs ++ [' ', '|']) ++ rest =
          ' ' :: (escapeBars cs ++ ' ' :: '|' :: rest) := by simp
      rw [List.map_cons, List.flatMap_cons, hfirst, cutFrom, if_neg (by decide),
        cutFrom_escapeBars, ih]
      rfl
  rw [cutAtBars, barLine, cutFrom, if_pos ⟨rfl, rfl⟩, hpieces, List.cons_append]

/-! ## Line feeds -/

theorem mem_of_mem_escapeBars {cs : List Char} {c : Char} (h : c ∈ escapeBars cs) :
    c ∈ cs ∨ c = '\\' := by
  fun_induction escapeBars cs with
  | case1 => exact .inl h
  | case2 cs ih => grind
  | case3 d cs _ ih => grind

theorem not_mem_barLine {pieces : List (List Char)} (h : ∀ piece ∈ pieces, '\n' ∉ piece) :
    '\n' ∉ barLine pieces := by
  intro hmem
  obtain ⟨piece, hpiece, hmem⟩ : ∃ piece ∈ pieces, '\n' ∈ ' ' :: piece ++ [' ', '|'] := by
    simpa [barLine] using hmem
  exact h piece hpiece (by simpa using hmem)

theorem not_mem_digits {c : Char} (h : c.isDigit = false) (n : Nat) : c ∉ Numeral.digits n := by
  intro hmem
  rw [Numeral.isDigit_of_mem_digits hmem] at h
  cases h

theorem mem_fixedText {places count : Nat} {c : Char} (h : c ∈ fixedText places count) :
    c.isDigit = true ∨ c = '.' := by
  unfold fixedText at h
  split at h
  · exact .inl (Numeral.isDigit_of_mem_digits h)
  · rcases List.mem_append.mp h with h | h
    · exact .inl (Numeral.isDigit_of_mem_digits h)
    · exact (List.mem_cons.mp h).elim .inr fun h => .inl (Numeral.isDigit_of_mem_lastDigits h)

/-- A finite number is shown in digits, with a sign and a point at most. -/
theorem mem_shown {d : Dyadic} {places : Nat} {c : Char} (h : c ∈ d.shown places) :
    c.isDigit = true ∨ c = '.' ∨ c = '-' := by
  unfold Dyadic.shown at h
  extract_lets magnitude at h
  have hmagnitude : c ∈ magnitude → c.isDigit = true ∨ c = '.' ∨ c = '-' := by
    intro h
    have hcases : c.isDigit = true ∨ c = '.' := by
      simp only [magnitude] at h
      split at h
      · split at h
        · exact .inl (Numeral.isDigit_of_mem_digits h)
        · exact mem_fixedText h
      · exact mem_fixedText h
    exact hcases.imp_right .inl
  split at h
  · rw [List.mem_singleton.mp h]
    exact .inl rfl
  · split at h
    · exact (List.mem_cons.mp h).elim (fun h => .inr (.inr h)) hmagnitude
    · exact hmagnitude h

theorem not_mem_numberText (x : Float) (places : Nat) : '\n' ∉ (numberText x places).toList := by
  unfold numberText
  split
  · rw [String.toList_ofList]
    intro h
    exact absurd (mem_shown h) (by decide)
  · split <;> decide

theorem not_mem_code (fault : Fault) : '\n' ∉ fault.code.toList := by
  unfold Fault.code
  cases fault.kind <;> decide

namespace Grid

/-- Text is the value of a cell only where it stands in the cell itself. -/
theorem eq_of_valueWithin_eq_text {g : Grid} {levels : Nat} {raw text : String}
    (h : g.valueWithin levels raw = .ok (.text text)) : text = raw := by
  by_cases hformula : IsFormula raw
  · obtain ⟨_, _, _, _, hvalue, _⟩ := exists_tree_of_valueWithin hformula h
    cases hvalue
  · rw [valueWithin_of_not_isFormula hformula, Value.ofLiteral] at h
    split at h
    · cases h
    · cases h
      rfl

theorem not_mem_of_valueAt_eq_text {g : Grid} {a : Address} {text : String}
    (hrows : FreeOfLineFeeds g.rows) (h : g.valueAt a = .ok (.text text)) : '\n' ∉ text.toList := by
  unfold valueAt at h
  split at h
  · next raw hraw =>
    rw [eq_of_valueWithin_eq_text h]
    obtain ⟨row, hrow, hcell⟩ := mem_cells_of_raw? hraw
    exact hrows row hrow raw hcell
  · cases h
    decide

end Grid

namespace Exercise

/-- Where no cell holds a line feed, none is shown, as a formula or as a value. -/
theorem not_mem_display {ex : Exercise} (hrows : FreeOfLineFeeds ex.grid.rows) (a : Address) :
    '\n' ∉ (ex.display a).toList := by
  unfold display
  split
  · cases hraw : ex.raw? a with
    | none => decide
    | some raw =>
      obtain ⟨row, hrow, hcell⟩ := Grid.mem_cells_of_raw? hraw
      exact hrows row hrow raw hcell
  · unfold resultText
    split
    · exact not_mem_numberText _ _
    · next text hvalue => exact Grid.not_mem_of_valueAt_eq_text hrows hvalue
    · exact not_mem_code _

/-! ## The lines of a table -/

/-- The lines in front of the rows: the heading, an empty line, the letters of the columns and the
rule below them. -/
def tableTop : List (List Char) :=
  ["# Exercise".toList, [], barLine ([' '] :: Column.all.map fun col => [col.letter]),
    '|' :: (List.replicate 6 "---|".toList).flatten]

/-- What the line of a row is made of: its number, counted from one, and what its cells show. -/
def rowTexts (ex : Exercise) (row : Nat) : List (List Char) :=
  Numeral.digits (row + 1) ::
    Column.all.map fun col => (ex.display (Address.ofColumn col row)).toList

theorem tableRow_eq (ex : Exercise) (row : Nat) :
    ex.tableRow row = barLine ((ex.rowTexts row).map escapeBars) ++ ['\n'] := by
  have hnumber : escapeBars (Numeral.digits (row + 1)) = Numeral.digits (row + 1) :=
    escapeBars_of_not_mem (not_mem_digits (by decide) _)
  rw [rowTexts, List.map_cons, hnumber, List.map_map]
  rfl

/-- A table is written line by line. -/
theorem toList_table {ex : Exercise} (h : ex.usedCount ≠ 0) :
    ex.table.toList = (tableTop ++ (List.range ex.usedCount).map fun row =>
      barLine ((ex.rowTexts row).map escapeBars)).flatMap (· ++ ['\n']) := by
  have hrows : (List.range ex.usedCount).flatMap ex.tableRow =
      ((List.range ex.usedCount).map fun row =>
        barLine ((ex.rowTexts row).map escapeBars)).flatMap (· ++ ['\n']) := by
    rw [List.flatMap_map]
    exact congrArg (List.range ex.usedCount).flatMap (funext ex.tableRow_eq)
  have htop : "# Exercise\n\n".toList ++ (tableHead ++ tableRule) =
      tableTop.flatMap (· ++ ['\n']) := by decide +kernel
  unfold table
  extract_lets title body
  have hbody : body = tableHead ++ tableRule ++ (List.range ex.usedCount).flatMap ex.tableRow := by
    simp only [body]
    rw [if_neg h]
  rw [String.toList_ofList, hbody, List.flatMap_append, ← htop, ← hrows, ← List.append_assoc]

theorem not_mem_tableTop : ∀ line ∈ tableTop, '\n' ∉ line := by
  decide

/-- Where no cell holds a line feed, the line of a row holds none. -/
theorem not_mem_rowLine {ex : Exercise} (hrows : FreeOfLineFeeds ex.grid.rows) (row : Nat) :
    '\n' ∉ barLine ((ex.rowTexts row).map escapeBars) := by
  have htexts : ∀ cs ∈ ex.rowTexts row, '\n' ∉ cs := by
    rw [rowTexts, List.forall_mem_cons, List.forall_mem_map]
    exact ⟨not_mem_digits (by decide) _, fun col _ => not_mem_display hrows _⟩
  apply not_mem_barLine
  rw [List.forall_mem_map]
  intro cs hcs hmem
  exact htexts cs hcs ((mem_of_mem_escapeBars hmem).resolve_right (by decide))

/-- The table of a lesson has four lines and one for each used row, and the line of a row is read back:
cut at the bars that are not behind a backslash, it gives nothing at either end and six pieces, each
between two blanks, which are the row's number and what its cells show once the backslashes in front of
bars are dropped. The cells may hold bars, backslashes, blanks and quotation marks, and may be shown as
formulas or as values. -/
theorem table_read_back {text : String} {rows : List Row} (hparse : Lesson.parse text = .ok rows)
    (showsFormulas : Bool) (places : Nat) :
    let ex : Exercise := { ofRows rows with showsFormulas, places }
    0 < ex.usedCount → ∃ lines : List (List Char),
      ex.table.toList = lines.flatMap (· ++ ['\n']) ∧ (∀ line ∈ lines, '\n' ∉ line) ∧
      lines.length = ex.usedCount + 4 ∧
      ∀ row < ex.usedCount, ∃ (line : List Char) (pieces : List (List Char)),
        lines[row + 4]? = some line ∧
        cutAtBars line = [] :: pieces.map (fun piece => ' ' :: piece ++ [' ']) ++ [[]] ∧
        pieces.map unescapeBars = Numeral.digits (row + 1) ::
          Column.all.map fun col => (ex.display (Address.ofColumn col row)).toList := by
  intro ex hused
  have hfree : FreeOfLineFeeds ex.grid.rows := freeOfLineFeeds_fill (Lesson.not_mem_of_parse hparse)
  refine ⟨_, toList_table (Nat.ne_of_gt hused), ?_, ?_, ?_⟩
  · rw [List.forall_mem_append, List.forall_mem_map]
    exact ⟨not_mem_tableTop, fun row _ => not_mem_rowLine hfree row⟩
  · rw [List.length_append, List.length_map, List.length_range, Nat.add_comm]
    rfl
  · intro row hrow
    refine ⟨_, (ex.rowTexts row).map escapeBars, ?_, cutAtBars_barLine _, ?_⟩
    · rw [List.getElem?_append_right (Nat.le_add_left 4 row)]
      simp [tableTop, hrow]
    · have hback : unescapeBars ∘ escapeBars = id := funext unescapeBars_escapeBars
      rw [List.map_map, hback, List.map_id]
      rfl

/-- A lesson of one row with bars, backslashes and formulas. -/
def barLesson : String :=
  "a|b,c\\|,=1/0,=B1,\\"

/-- The values of `barLesson` are read back from the fifth line of its table. -/
theorem table_of_barLesson_read_back :
    ∃ rows, Lesson.parse barLesson = .ok rows ∧ 0 < (ofRows rows).usedCount ∧
      ∃ (lines : List (List Char)) (line : List Char) (pieces : List (List Char)),
        (ofRows rows).table.toList = lines.flatMap (· ++ ['\n']) ∧ lines[4]? = some line ∧
        cutAtBars line = [] :: pieces.map (fun piece => ' ' :: piece ++ [' ']) ++ [[]] ∧
        pieces.map unescapeBars =
          ["1", "a|b", "c\\|", "#ERROR!", "0", "\\"].map String.toList := by
  have hparse : Lesson.parse barLesson = .ok [⟨"a|b", "c\\|", "=1/0", "=B1", "\\"⟩] := by cbv
  have hused : 0 < (ofRows [⟨"a|b", "c\\|", "=1/0", "=B1", "\\"⟩]).usedCount := by cbv
  have hshown : Numeral.digits (0 + 1) :: Column.all.map (fun col =>
      ((ofRows [⟨"a|b", "c\\|", "=1/0", "=B1", "\\"⟩]).display (Address.ofColumn col 0)).toList) =
        ["1", "a|b", "c\\|", "#ERROR!", "0", "\\"].map String.toList := by decide +kernel
  obtain ⟨lines, htable, _, _, hlines⟩ := table_read_back hparse false defaultPlaces hused
  obtain ⟨line, pieces, hline, hcut, hpieces⟩ := hlines 0 hused
  exact ⟨_, hparse, hused, lines, line, pieces, htable, hline, hcut, hpieces.trans hshown⟩

end Exercise

end LessonGrid
