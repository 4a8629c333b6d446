import LessonGrid.Proofs.Cell.Range
import LessonGrid.Proofs.Cell.Reading
import LessonGrid.Proofs.Grid.Order

/-!
# The order of a sweep

The sweep of a range comes by the cells of the rectangle in their order, row by row and within a row
from left to right, and so by each of them once. Its first cells can be had without the rest. The cells
can be counted wherever neither end of the range lies in the last row or column of all, as is the case
for every range that a text writes.

Main statement: `Range.sweep_enumerates_rectangle`.
-/

set_option autoImplicit false

namespace LessonGrid

/-- An address lies neither in the last row of all nor in the last column: both can be counted from one
in words. -/
structure Address.BelowLastWord (a : Address) : Prop where
  row : a.row.toNat ≤ 2 ^ 64 - 2
  col : a.col.toNat ≤ 2 ^ 64 - 2

theorem Address.Nameable.belowLastWord {a : Address} (h : a.Nameable) : a.BelowLastWord := by
  obtain ⟨hcol, hrow⟩ := h
  rw [UInt64.size] at hrow
  exact ⟨by omega, by omega⟩

/-! ## Spans -/

theorem span_pairwise_lt (low high : UInt64) : (span low high).Pairwise (· < ·) := by
  rw [span, leadingSpan, Nat.min_self, List.pairwise_map]
  refine List.pairwise_lt_range.imp_of_mem ?_
  intro i j hi hj hlt
  rw [UInt64.lt_iff_toNat_lt, (toNat_add_of_lt_spanSize (List.mem_range.mp hi)).1,
    (toNat_add_of_lt_spanSize (List.mem_range.mp hj)).1]
  exact Nat.add_lt_add_left hlt _

theorem leadingSpan_eq_take (count : Nat) (low high : UInt64) :
    leadingSpan count low high = (span low high).take count := by
  rw [span, leadingSpan, leadingSpan, Nat.min_self, ← List.map_take, List.take_range]

theorem spanSize_le (low high : UInt64) : spanSize low high ≤ high.toNat + 1 := by
  unfold spanSize
  split <;> omega

/-- The front of a list of pieces is to be had from the fronts of its first pieces, since every piece
adds to it. -/
theorem take_flatMap_take {α β : Type} {f : α → List β} (hf : ∀ a, f a ≠ []) (as : List α)
    {pieces width count : Nat} (hpieces : count ≤ pieces) (hwidth : count ≤ width) :
    ((as.take pieces).flatMap fun a => (f a).take width).take count = (as.flatMap f).take count := by
  induction as generalizing pieces count with
  | nil => rw [List.take_nil, List.flatMap_nil, List.flatMap_nil]
  | cons a as ih =>
    cases pieces with
    | zero =>
      rw [Nat.le_zero.mp hpieces, List.take_zero, List.take_zero]
    | succ pieces =>
      have hpiece : 0 < (f a).length := List.length_pos_iff.mpr (hf a)
      rw [List.take_succ_cons, List.flatMap_cons, List.flatMap_cons, List.take_append, List.take_append,
        List.take_take, Nat.min_eq_left hwidth, List.length_take]
      congr 1
      by_cases hshort : (f a).length ≤ width
      · rw [Nat.min_eq_right hshort]
        exact ih (by omega) (by omega)
      · rw [Nat.sub_eq_zero_of_le (by omega), Nat.sub_eq_zero_of_le (by omega), List.take_zero,
          List.take_zero]

namespace Range

variable {r : Range}

/-! ## The order of the cells -/

/-- The cell lies between the first and the last one, in rows and in columns. -/
def Covers (r : Range) (a : Address) : Prop :=
  (r.first.row ≤ a.row ∧ a.row ≤ r.last.row) ∧ r.first.col ≤ a.col ∧ a.col ≤ r.last.col

instance (r : Range) (a : Address) : Decidable (r.Covers a) :=
  inferInstanceAs (Decidable ((_ ∧ _) ∧ _ ∧ _))

/-- The cells of a range are swept in their order. -/
theorem cells_pairwise_before (r : Range) : r.cells.Pairwise Address.Before := by
  unfold cells
  rw [List.pairwise_flatMap]
  constructor
  · intro row _
    rw [List.pairwise_map]
    exact (span_pairwise_lt _ _).imp fun hlt => .inr ⟨rfl, hlt⟩
  · refine (span_pairwise_lt _ _).imp ?_
    intro upper lower hlt a ha b hb
    obtain ⟨_, _, rfl⟩ := List.mem_map.mp ha
    obtain ⟨_, _, rfl⟩ := List.mem_map.mp hb
    exact .inl hlt

/-- A cell of the rectangle is swept once, any other cell not at all. -/
theorem count_cells (r : Range) (a : Address) : r.cells.count a = if r.Covers a then 1 else 0 := by
  have hnodup : r.cells.Nodup := r.cells_pairwise_before.imp Address.Before.ne
  rw [hnodup.count]
  exact if_congr mem_cells_iff rfl rfl

theorem cells_eq_nil_iff : r.cells = [] ↔ r.isEmpty = true := by
  rw [← List.length_eq_zero_iff, length_cells_eq_zero_iff]

/-- The leading cells are the beginning of the sweep, though the rest of it is not visited for them. -/
theorem leadingCells_eq_take (r : Range) (count : Nat) : r.leadingCells count = r.cells.take count := by
  rw [leadingCells, cells]
  simp only [leadingSpan_eq_take, List.map_take]
  by_cases hcols : span r.first.col r.last.col = []
  · have hnone : ∀ rows : List UInt64, (rows.flatMap fun _ => ([] : List Address)) = [] :=
      fun rows => List.flatMap_eq_nil_iff.mpr fun _ _ => rfl
    simp only [hcols, List.map_nil, List.take_nil, hnone]
  · exact take_flatMap_take (fun row => by simpa using hcols) _ (Nat.le_refl _) (Nat.le_refl _)

/-! ## The size of ranges that texts write -/

theorem not_spansAllWords_of_belowLastWord (h : r.last.BelowLastWord) : ¬ r.SpansAllWords := by
  rintro ⟨-, hall⟩
  have hheight : r.height ≤ r.last.row.toNat + 1 := spanSize_le _ _
  have hwidth : r.width ≤ r.last.col.toNat + 1 := spanSize_le _ _
  have hrow := h.row
  have hcol := h.col
  rw [UInt64.size] at hall
  omega

theorem belowLastWord_of_ofChars? {cs : List Char} (h : ofChars? cs = some r) :
    r.first.BelowLastWord ∧ r.last.BelowLastWord := by
  obtain ⟨us, vs, -, hfirst, hlast⟩ := ofChars?_eq_some_iff.mp h
  exact ⟨(Address.ofChars?_eq_some_iff.mp hfirst).1.belowLastWord,
    (Address.ofChars?_eq_some_iff.mp hlast).1.belowLastWord⟩

/-- The sweep of a range comes by each cell of the rectangle once and by no other cell, row by row and
from left to right; it comes by none if and only if the range is empty. Between ends that lie below the
last row and column, such as those that texts write, the cells can be counted, and there are as many as
the size says, which ends at the largest word. -/
theorem sweep_enumerates_rectangle :
    (∀ r : Range,
      (∀ a, r.cells.count a = if r.Covers a then 1 else 0) ∧
      r.cells.Pairwise Address.Before ∧
      (∀ count, r.leadingCells count = r.cells.take count) ∧
      (r.isEmpty = true ↔ r.cells = []) ∧
      (r.first.BelowLastWord → r.last.BelowLastWord →
        r.size? = some (min r.cells.length (2 ^ 64 - 1)))) ∧
    ∀ (cs : List Char) (r : Range), ofChars? cs = some r →
      r.first.BelowLastWord ∧ r.last.BelowLastWord := by
  refine ⟨fun r => ⟨r.count_cells, r.cells_pairwise_before, r.leadingCells_eq_take,
    cells_eq_nil_iff.symm, fun _ hlast => ?_⟩, fun cs r => belowLastWord_of_ofChars?⟩
  rw [size?_eq, if_neg (not_spansAllWords_of_belowLastWord hlast)]
  rfl

/-- The longest column that a text writes has one cell less than there are words, which is the largest
size of all. -/
theorem size_of_longest_column :
    ofChars? "A1:A18446744073709551615".toList = some ⟨⟨0, 0⟩, ⟨0, 18446744073709551614⟩⟩ ∧
    (⟨0, 0⟩ : Address).BelowLastWord ∧ (⟨0, 18446744073709551614⟩ : Address).BelowLastWord ∧
    (⟨⟨0, 0⟩, ⟨0, 18446744073709551614⟩⟩ : Range).size? =
      some (min (⟨⟨0, 0⟩, ⟨0, 18446744073709551614⟩⟩ : Range).cells.length (2 ^ 64 - 1)) := by
  have hread : ofChars? "A1:A18446744073709551615".toList =
      some ⟨⟨0, 0⟩, ⟨0, 18446744073709551614⟩⟩ := by decide
  obtain ⟨hfirst, hlast⟩ := sweep_enumerates_rectangle.2 _ _ hread
  exact ⟨hread, hfirst, hlast, (sweep_enumerates_rectangle.1 _).2.2.2.2 hfirst hlast⟩

end Range

end LessonGrid
