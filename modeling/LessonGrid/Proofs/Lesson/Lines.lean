import LessonGrid.Lesson.File

/-!
# Lines of a lesson file

A text is cut into lines at its line feeds. Main statements: `lines_flatMap` (lines that are written
one after the other, each with a line feed behind it, are read back) and `not_mem_of_mem_lines` (no
line holds a line feed).
-/

set_option autoImplicit false

namespace LessonGrid.Lesson

theorem dropReturn_of_getLast? {line : List Char} (h : line.getLast? ≠ some '\r') :
    dropReturn line = line :=
  if_neg h

theorem dropReturn_sublist (line : List Char) : (dropReturn line).Sublist line := by
  unfold dropReturn
  split
  · exact List.dropLast_sublist line
  · exact List.Sublist.refl line

/-- The first line of a text ends at its first line feed. -/
theorem lines_append {line : List Char} (h : '\n' ∉ line) (rest : List Char) :
    lines (line ++ '\n' :: rest) = dropReturn line :: lines rest := by
  have hpieces : (line ++ '\n' :: rest).splitOn '\n' = line :: rest.splitOn '\n' :=
    List.splitOn_append_cons_self_of_not_mem h rest
  cases hrest : rest.splitOn '\n' with
  | nil => exact absurd hrest (List.splitOn_ne_nil '\n' rest)
  | cons piece pieces =>
    simp only [lines, hpieces, hrest, List.getLast?_cons_cons, List.dropLast_cons_cons,
      List.map_cons, List.cons_append]

/-- Lines that are written one after the other are read back, but for a carriage return at the end of
a line. -/
theorem lines_flatMap {pieces : List (List Char)} (h : ∀ piece ∈ pieces, '\n' ∉ piece) :
    lines (pieces.flatMap (· ++ ['\n'])) = pieces.map dropReturn := by
  induction pieces with
  | nil => rfl
  | cons piece pieces ih =>
    obtain ⟨hpiece, hpieces⟩ := List.forall_mem_cons.mp h
    rw [List.flatMap_cons, List.append_assoc, List.singleton_append, lines_append hpiece,
      ih hpieces, List.map_cons]

/-- The pieces between line feeds hold none. -/
theorem not_mem_of_mem_splitOn {text piece : List Char} (h : piece ∈ text.splitOn '\n') :
    '\n' ∉ piece := by
  induction text generalizing piece with
  | nil =>
    rw [List.splitOn_nil, List.mem_singleton] at h
    simp [h]
  | cons c cs ih =>
    rw [List.splitOn_cons_eq_if_modifyHead] at h
    split at h
    · rcases List.mem_cons.mp h with rfl | h
      · exact List.not_mem_nil
      · exact ih h
    · next hc =>
      cases hcs : cs.splitOn '\n' with
      | nil => exact absurd hcs (List.splitOn_ne_nil '\n' cs)
      | cons first pieces =>
        rw [hcs, List.modifyHead_cons] at h
        rw [hcs] at ih
        rcases List.mem_cons.mp h with rfl | h
        · have hne : c ≠ '\n' := by simpa using hc
          intro hmem
          rcases List.mem_cons.mp hmem with heq | hmem
          · exact hne heq.symm
          · exact ih List.mem_cons_self hmem
        · exact ih (List.mem_cons_of_mem first h)

/-- No line holds a line feed. -/
theorem not_mem_of_mem_lines {text line : List Char} (h : line ∈ lines text) : '\n' ∉ line := by
  simp only [lines, List.mem_append, List.mem_map] at h
  rcases h with ⟨piece, hpiece, rfl⟩ | h
  · intro hmem
    exact not_mem_of_mem_splitOn ((List.dropLast_sublist _).mem hpiece)
      ((dropReturn_sublist piece).mem hmem)
  · split at h
    · exact absurd h List.not_mem_nil
    · rw [List.mem_singleton] at h
      cases hlast : (text.splitOn '\n').getLast? with
      | none => simp [h, hlast]
      | some last =>
        rw [h, hlast, Option.getD_some]
        exact not_mem_of_mem_splitOn (List.mem_of_getLast? hlast)

end LessonGrid.Lesson
