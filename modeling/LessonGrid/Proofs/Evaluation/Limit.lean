import LessonGrid.Evaluation.Basic
import LessonGrid.Proofs.Cell.Range

/-!
# Ranges that are swept

A range is swept when it has at most `maxSweep` cells, whatever words its ends lie at. One of more cells
is refused, unless the program stops at it: the size of the range cannot be counted where it spans all
words, and its text cannot be had where it reaches into the last row of all.

Main statements: `Range.refusal?_eq`, `sweep_eq_ok_iff` and `Grid.expand_eq_error_iff`.
-/

set_option autoImplicit false

namespace LessonGrid

namespace Range

variable {r : Range}

/-- Counting the cells of the range, or naming it in a message, leads past the last word. -/
def LeavesWords (r : Range) : Prop :=
  r.SpansAllWords ∨ r.last.row.toNat = UInt64.size - 1

instance (r : Range) : Decidable r.LeavesWords :=
  inferInstanceAs (Decidable (_ ∨ _))

/-- Where there are cells, the first end lies in the last row of all only when the other end does. -/
theorem text?_eq_none_iff_of_isEmpty_eq_false (h : r.isEmpty = false) :
    r.text? = none ↔ r.last.row.toNat = UInt64.size - 1 := by
  have hrows : r.first.row.toNat ≤ r.last.row.toNat := (isEmpty_eq_false_iff.mp h).1
  have hlast := r.last.row.toNat_lt_size
  rw [text?_eq_none_iff, Address.text?_eq_none_iff, Address.text?_eq_none_iff]
  omega

/-- A range is swept, refused or stops the program, as the number of its cells and its ends say. -/
theorem refusal?_eq (r : Range) : r.refusal? =
    if r.cells.length ≤ maxSweep then none
    else if r.LeavesWords then some .overflow else some (.rangeTooLarge r) := by
  have hlimit : maxSweep < maxSize := by decide
  unfold refusal?
  by_cases hfew : r.cells.length ≤ maxSweep
  · rw [size?_of_length_le (Nat.le_of_lt (Nat.lt_of_le_of_lt hfew hlimit))]
    simp [hfew]
  · have hcells : r.isEmpty = false := by
      rw [← Bool.not_eq_true, ← length_cells_eq_zero_iff]
      omega
    have hmany : ¬ min r.cells.length maxSize ≤ maxSweep := by omega
    have hleaves : r.LeavesWords ↔ r.SpansAllWords ∨ r.text? = none :=
      or_congr Iff.rfl (text?_eq_none_iff_of_isEmpty_eq_false hcells).symm
    -- Counting comes first, and only a range that has been counted has to be named.
    simp only [size?_eq, hleaves, hfew, if_false]
    by_cases hspan : r.SpansAllWords
    · simp [hspan]
    · cases r.text? <;> simp [hspan, hmany]

theorem refusal?_eq_none_iff : r.refusal? = none ↔ r.cells.length ≤ maxSweep := by
  rw [refusal?_eq]
  split
  · simp [*]
  · split <;> simp [*]

theorem refusal?_cases {fault : Fault} (h : r.refusal? = some fault) :
    fault = .overflow ∨ fault = .rangeTooLarge r := by
  rw [refusal?_eq] at h
  split at h
  · cases h
  · split at h <;> cases h
    · exact .inl rfl
    · exact .inr rfl

end Range

variable {read : Address → Except Fault Float} {r : Range} {fault : Fault}

/-- Nothing but the range itself keeps it from being swept. -/
theorem sweep_eq_error_iff : sweep read r = .error fault ↔ r.refusal? = some fault := by
  unfold sweep
  split <;> simp [*]

theorem sweep_of_length_le (h : r.cells.length ≤ maxSweep) :
    sweep read r = .ok (r.cells.map fun a => (read a).toOption.getD 0) := by
  rw [sweep, Range.refusal?_eq_none_iff.mpr h]

theorem sweep_eq_ok_iff {xs : List Float} : sweep read r = .ok xs ↔
    r.cells.length ≤ maxSweep ∧ xs = r.cells.map fun a => (read a).toOption.getD 0 := by
  rw [← Range.refusal?_eq_none_iff, sweep]
  split <;> simp [*, eq_comm]

namespace Grid

variable {g : Grid} {r : Range} {level : Nat}

/-- What keeps a range from being swept is the same on every grid and on every level. -/
theorem expand_eq_error_iff {fault : Fault} : g.expand r level = .error fault ↔
    maxSweep < r.cells.length ∧ fault = if r.LeavesWords then .overflow else .rangeTooLarge r := by
  rw [expand, sweep_eq_error_iff, Range.refusal?_eq]
  split
  · next hfew => simp [Nat.not_lt.mpr hfew]
  · next hmany => split <;> simp [Nat.not_le.mp hmany, eq_comm]

theorem expand_eq_overflow_iff :
    g.expand r level = .error .overflow ↔ maxSweep < r.cells.length ∧ r.LeavesWords := by
  rw [expand_eq_error_iff]
  split <;> simp [*]

theorem expand_eq_rangeTooLarge_iff : g.expand r level = .error (.rangeTooLarge r) ↔
    maxSweep < r.cells.length ∧ ¬ r.LeavesWords := by
  rw [expand_eq_error_iff]
  split <;> simp [*]

theorem expand_of_size?_eq_none (h : r.size? = none) : g.expand r level = .error .overflow := by
  rw [expand, sweep_eq_error_iff, Range.refusal?, h]

theorem exists_expand_eq_error_iff :
    (∃ fault, g.expand r level = .error fault) ↔ maxSweep < r.cells.length := by
  simp only [expand_eq_error_iff, exists_and_left, exists_eq, and_true]

/-- A range is swept exactly when it has at most `maxSweep` cells. -/
theorem expand_isOk_iff : (∃ xs, g.expand r level = .ok xs) ↔ r.cells.length ≤ maxSweep := by
  simp only [expand, sweep_eq_ok_iff, exists_and_left, exists_eq, and_true]

end Grid

end LessonGrid
