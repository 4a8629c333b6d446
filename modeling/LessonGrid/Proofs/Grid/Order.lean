import Mathlib
import LessonGrid.Grid.Basic

/-!
# The order of cells

Cells are ordered row by row, and within a row from left to right. A grid lists its cells in this
order, as long as its rows can be numbered by words. Main statement: `addresses_pairwise_before`.
-/

set_option autoImplicit false

namespace LessonGrid

/-- One cell comes before another when the rows are read one after the other. -/
def Address.Before (a b : Address) : Prop :=
  a.row < b.row ∨ a.row = b.row ∧ a.col < b.col

theorem Address.Before.ne {a b : Address} (h : a.Before b) : a ≠ b := by
  rintro rfl
  rcases h with h | ⟨_, h⟩
  · exact UInt64.lt_irrefl _ h
  · exact UInt64.lt_irrefl _ h

theorem toUInt64_lt_of_lt {m n : Nat} (h : m < n) (hn : n < 2 ^ 64) :
    m.toUInt64 < n.toUInt64 := by
  rw [UInt64.lt_iff_toNat_lt]
  simp only [Nat.toUInt64_eq, UInt64.toNat_ofNat']
  omega

/-- The columns come from left to right. -/
theorem Column.all_pairwise_lt : Column.all.Pairwise fun left right => left.index < right.index := by
  decide

/-- The cells of a grid are listed in their order. -/
theorem Grid.addresses_pairwise_before {g : Grid} (h : g.rows.length ≤ 2 ^ 64) :
    g.addresses.Pairwise Address.Before := by
  unfold addresses
  rw [List.pairwise_flatMap]
  constructor
  · intro row _
    rw [List.pairwise_map]
    refine Column.all_pairwise_lt.imp ?_
    intro left right hlt
    have hright : right.index < 2 ^ 64 := Nat.lt_trans right.index_lt (by decide)
    exact .inr ⟨rfl, toUInt64_lt_of_lt hlt hright⟩
  · refine List.pairwise_lt_range.imp_of_mem ?_
    intro upper lower _ hlower hlt a ha b hb
    obtain ⟨_, _, rfl⟩ := List.mem_map.mp ha
    obtain ⟨_, _, rfl⟩ := List.mem_map.mp hb
    have hrow : lower < 2 ^ 64 := Nat.lt_of_lt_of_le (List.mem_range.mp hlower) h
    exact .inl (toUInt64_lt_of_lt hlt hrow)

end LessonGrid
