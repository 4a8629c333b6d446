import Mathlib
import LessonGrid.Proofs.Dependency.Coverage
import LessonGrid.Proofs.Evaluation.Ceiling
import LessonGrid.Proofs.Evaluation.Locality

/-!
# Circular references and cycles

Evaluation knows no cycles, only a lowest level; the search for a cycle knows no levels. The two agree
up to length: where a cell is a circular reference, a cycle is found from it, or a chain of formulas
leads down from it through more different cells than there are levels.

A circular reference gives a chain of cells through all the levels. When the chain passes a cell twice
it closes a loop, and every loop of references by themselves is a loop of dependencies, which the
search does not miss.

Main statement: `circular_of_cycle_or_long_chain`.
-/

set_option autoImplicit false

namespace LessonGrid.Grid

variable {g : Grid} {a b : Address}

/-- A reference by itself is an edge. -/
theorem NamesCell.edge (h : g.NamesCell a b) : g.Edge a b := by
  obtain ⟨raw, hraw, hname⟩ := h
  exact (edge_iff_of_raw? hraw).mpr hname.mem_dependencies

/-- Cells that lead down from the formula in a cell make a chain with it, each of them with a formula
and with a reference to the next one. -/
theorem LeadsDown.isChain {raw : String} {cells : List Address} (hraw : g.raw? a = some raw)
    (h : g.LeadsDown raw cells) :
    (a :: cells).IsChain g.NamesCell ∧ ∀ b ∈ a :: cells, g.HoldsFormula b := by
  induction cells generalizing a raw with
  | nil => exact ⟨.singleton a, List.forall_mem_singleton.mpr ⟨raw, hraw, h⟩⟩
  | cons b cells ih =>
    have hformula : g.HoldsFormula a := ⟨raw, hraw, h.isFormula⟩
    obtain ⟨hname, raw', hraw', hrest⟩ := h
    obtain ⟨hchain, hcells⟩ := ih hraw' hrest
    have hstep : g.NamesCell a b := ⟨raw, hraw, hname⟩
    exact ⟨hchain.cons_cons hstep, List.forall_mem_cons.mpr ⟨hformula, hcells⟩⟩

/-- A cell with a circular reference starts a chain of formulas through all the levels. -/
theorem exists_chain_of_valueAt_circular (h : g.valueAt a = .error .circular) :
    ∃ cells, cells.length = maxLevel + 1 ∧ (a :: cells).IsChain g.NamesCell ∧
      ∀ b ∈ a :: cells, g.HoldsFormula b := by
  unfold valueAt at h
  split at h
  · next raw hraw =>
    obtain ⟨cells, hlength, hcells⟩ := leadsDown_of_circular h
    exact ⟨cells, hlength, hcells.isChain hraw⟩
  · cases h

/-- Different cells with formulas are no more than all the cells with formulas. -/
theorem length_le_encard_of_nodup {cells : List Address} (hnodup : cells.Nodup)
    (hcells : ∀ b ∈ cells, g.HoldsFormula b) :
    (cells.length : ℕ∞) ≤ {b | g.HoldsFormula b}.encard := by
  have hsubset : (cells.toFinset : Set Address) ⊆ {b | g.HoldsFormula b} := by
    intro b hb
    exact hcells b (by simpa using hb)
  have hle := Set.encard_le_encard hsubset
  rwa [Set.encard_coe_eq_coe_finsetCard, List.toFinset_card_of_nodup hnodup] at hle

/-- Where a cell is a circular reference, a cycle is found from it, or it starts a chain through
different cells of the grid, one more than the levels and the cell itself can hold: all of them hold
formulas, and each but the last one has a formula that refers to the next one by itself. In a grid
with fewer formulas than that, a cycle is found from every cell that is a circular reference. -/
theorem circular_of_cycle_or_long_chain (g : Grid) :
    (∀ a, g.valueAt a = .error .circular → (g.findCycle? a).isSome = true ∨
      ∃ cells, (a :: cells).length = maxLevel + 2 ∧ (a :: cells).Nodup ∧
        (∀ b ∈ a :: cells, g.HoldsFormula b) ∧ (a :: cells).IsChain g.NamesCell) ∧
    ({b | g.HoldsFormula b}.encard ≤ maxLevel + 1 →
      ∀ a, g.valueAt a = .error .circular → (g.findCycle? a).isSome = true) := by
  have hcases : ∀ a, g.valueAt a = .error .circular → (g.findCycle? a).isSome = true ∨
      ∃ cells, (a :: cells).length = maxLevel + 2 ∧ (a :: cells).Nodup ∧
        (∀ b ∈ a :: cells, g.HoldsFormula b) ∧ (a :: cells).IsChain g.NamesCell := by
    intro a h
    obtain ⟨cells, hlength, hchain, hcells⟩ := exists_chain_of_valueAt_circular h
    by_cases hnodup : (a :: cells).Nodup
    · exact .inr ⟨cells, by rw [List.length_cons, hlength], hnodup, hcells, hchain⟩
    · exact .inl (findCycle?_isSome_iff.mpr
        (leadsToLoop_of_not_nodup (hchain.imp fun _ _ hstep => hstep.edge) hnodup))
  refine ⟨hcases, fun hfew a h => ?_⟩
  rcases hcases a h with hfound | ⟨cells, hlength, hnodup, hcells, _⟩
  · exact hfound
  · have hmany := (length_le_encard_of_nodup hnodup hcells).trans hfew
    rw [hlength] at hmany
    exact absurd (ENat.natCast_le_natCast.mp hmany) (by decide)

/-- Twelve formulas in column `A`, each of which refers to the cell below it. -/
def staircase : Grid :=
  ⟨["=A2", "=A3", "=A4", "=A5", "=A6", "=A7", "=A8", "=A9", "=A10", "=A11", "=A12", "=A13"].map
    fun formula => ⟨formula, "", "", "", ""⟩⟩

/-- The top of `staircase` is a circular reference without a cycle, so its twelve formulas are as few
as there can be. -/
theorem twelve_formulas_of_staircase :
    staircase.valueAt ⟨0, 0⟩ = .error .circular ∧ staircase.findCycle? ⟨0, 0⟩ = none ∧
      ∃ cells : List Address, cells.length = 12 ∧ cells.Nodup ∧
        ∀ b ∈ cells, staircase.HoldsFormula b := by
  have hvalue : staircase.valueAt ⟨0, 0⟩ = .error .circular := by cbv
  have hclear : staircase.findCycle? ⟨0, 0⟩ = none := by cbv
  refine ⟨hvalue, hclear, ?_⟩
  rcases (circular_of_cycle_or_long_chain staircase).1 ⟨0, 0⟩ hvalue with hfound |
    ⟨cells, hlength, hnodup, hcells, _⟩
  · simp [hclear] at hfound
  · exact ⟨_, hlength, hnodup, hcells⟩

end LessonGrid.Grid
