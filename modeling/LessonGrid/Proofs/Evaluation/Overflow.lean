import Mathlib
import LessonGrid.Proofs.Evaluation.Limit

/-!
# Counting past the last word

Rows are numbered and ranges are counted in words, and the program stops where a step of counting leaves
them. The number of a row does so for the last row of all, and the size of a range for ranges that span
all words. Everywhere else both are exact. A range of too many cells is never swept: it is refused, unless
counting it or putting it in words for the message stops the program first.

Main statement: `counting_exact_within_words`.
-/

set_option autoImplicit false

namespace LessonGrid

/-- The number that a text ends with. -/
def numberAtEnd (text : List Char) : Nat :=
  Numeral.value (text.rtakeWhile Char.isDigit)

theorem numberAtEnd_append_cons_digits (front : List Char) {l : Char} (hl : l.isDigit = false)
    (n : Nat) : numberAtEnd (front ++ l :: Numeral.digits n) = n := by
  have hback : ∀ d ∈ (Numeral.digits n).reverse, d.isDigit = true := fun d hd =>
    Numeral.isDigit_of_mem_digits (List.mem_reverse.mp hd)
  rw [numberAtEnd, List.rtakeWhile, List.reverse_append, List.reverse_cons, List.append_assoc,
    List.takeWhile_append_of_pos hback, List.singleton_append,
    List.takeWhile_cons_of_neg (by simp [hl]), List.append_nil, List.reverse_reverse,
    Numeral.value_digits]

/-- The text of an address ends with its row's number. -/
theorem Address.numberAtEnd_of_text? {a : Address} {text : List Char} (h : a.text? = some text) :
    numberAtEnd text = a.row.toNat + 1 := by
  rw [text?, Option.map_eq_some_iff] at h
  obtain ⟨number, hnumber, rfl⟩ := h
  rw [← rowNumber?_eq_some_iff.mp hnumber]
  cases a.column? with
  | some col =>
    have hletter : col.letter.isDigit = false := by cases col <;> rfl
    exact numberAtEnd_append_cons_digits [] hletter number.toNat
  | none =>
    have hcolon : ':'.isDigit = false := by decide
    exact numberAtEnd_append_cons_digits ('#' :: Numeral.digits a.col.toNat) hcolon number.toNat

/-- Counting is exact as long as it stays within the words, and the program stops where it does not.
The row's number leaves them for the last row of all and for no other. The size of a range leaves them
if and only if the range spans all words, from the first to the last, in rows or in columns. A range of
too many cells is never swept; the program stops at it when it is one of those or reaches into the last
row of all, and refuses it otherwise. -/
theorem counting_exact_within_words (g : Grid) (a : Address) (r : Range) (level : Nat) :
    ((a.text? = none ↔ a.row.toNat = 2 ^ 64 - 1) ∧
      ∀ text, a.text? = some text → numberAtEnd text = a.row.toNat + 1) ∧
    ((r.SpansAllWords ↔ r.isEmpty = false ∧
        ((r.first.row.toNat = 0 ∧ r.last.row.toNat = 2 ^ 64 - 1) ∨
          r.first.col.toNat = 0 ∧ r.last.col.toNat = 2 ^ 64 - 1)) ∧
      r.size? = if r.SpansAllWords then none else some (min r.cells.length (2 ^ 64 - 1))) ∧
    ((g.expand r level = .error .overflow ↔
        maxSweep < r.cells.length ∧ (r.SpansAllWords ∨ r.last.row.toNat = 2 ^ 64 - 1)) ∧
      (g.expand r level = .error (.rangeTooLarge r) ↔
        maxSweep < r.cells.length ∧ ¬ (r.SpansAllWords ∨ r.last.row.toNat = 2 ^ 64 - 1)) ∧
      ((∃ xs, g.expand r level = .ok xs) ↔ r.cells.length ≤ maxSweep)) :=
  ⟨⟨Address.text?_eq_none_iff, fun _ => Address.numberAtEnd_of_text?⟩,
    ⟨Range.spansAllWords_iff, r.size?_eq⟩,
    ⟨Grid.expand_eq_overflow_iff, Grid.expand_eq_rangeTooLarge_iff, Grid.expand_isOk_iff⟩⟩

/-- An address in the last row of all cannot be shown. A row that runs over all columns there are cannot
be counted, and so the program stops at it in place of refusing it. -/
theorem counting_stops_past_last_word :
    (⟨0, 18446744073709551615⟩ : Address).text? = none ∧
    (⟨⟨0, 0⟩, ⟨18446744073709551615, 0⟩⟩ : Range).size? = none ∧
    maxSweep < (⟨⟨0, 0⟩, ⟨18446744073709551615, 0⟩⟩ : Range).cells.length ∧
    Grid.empty.expand ⟨⟨0, 0⟩, ⟨18446744073709551615, 0⟩⟩ 0 = .error .overflow := by
  have hspan : (⟨⟨0, 0⟩, ⟨18446744073709551615, 0⟩⟩ : Range).SpansAllWords := by decide
  have hmany := Range.le_length_cells_of_spansAllWords hspan
  have hcells := Nat.lt_of_lt_of_le (by decide : maxSweep < UInt64.size) hmany
  exact ⟨by decide, by decide, hcells, Grid.expand_eq_overflow_iff.mpr ⟨hcells, .inl hspan⟩⟩

end LessonGrid
