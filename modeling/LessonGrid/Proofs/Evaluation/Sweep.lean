import LessonGrid.Proofs.Decimal.Exact
import LessonGrid.Proofs.Evaluation.Levels
import LessonGrid.Proofs.Evaluation.Limit

/-!
# Cells by themselves and in ranges

A cell comes to the same number whether it is evaluated as a text, referred to by itself or swept with
a range, but for its fault, which counts as zero in a sweep. So nothing that a cell holds can make a
sweep fail: the range alone does, by the number of its cells. A sweep has a number for each cell of the
range, as many as its size says.

Main statement: `resolve_agrees_with_evaluate_and_expand`.
-/

set_option autoImplicit false

namespace LessonGrid

/-! ## Literals -/

theorem finiteNumber?_of_isBlankText {text : String} (h : isBlankText text.toList = true) :
    finiteNumber? text = none := by
  rw [finiteNumber?, trim_eq_nil_iff.mpr h]
  rfl

/-- A text that is no formula stands for the same number as its content does. -/
theorem amount_ofText {text : String} (h : ¬ IsFormula text) :
    (Content.ofText text).amount = (Value.ofLiteral text).amount := by
  rw [Content.ofText, not_isFormula_iff.mp h, Value.ofLiteral]
  by_cases hblank : isBlankText text.toList = true
  · simp only [hblank, if_true, finiteNumber?_of_isBlankText hblank]
    rfl
  · simp only [hblank]
    cases finiteNumber? text <;> rfl

namespace Grid

variable {g : Grid} {a : Address} {level : Nat}

/-- A cell that is referred to has the number of its text, evaluated one level further down. -/
theorem resolve_eq_evaluate {text : String} (h : g.raw? a = some text) :
    g.resolve a level = (g.evaluate text (level + 1)).map Value.amount := by
  rw [resolve, evaluate]
  by_cases hformula : IsFormula text
  · rw [readWith_of_isFormula h hformula]
  · rw [readWith_of_not_isFormula h hformula, valueWithin_of_not_isFormula hformula,
      amount_ofText hformula]
    rfl

theorem resolve_of_raw?_eq_none (h : g.raw? a = none) : g.resolve a level = .ok 0 := by
  rw [resolve, readWith, h]

end Grid

/-! ## Sweeps -/

/-- `COUNT` gives the number of cells, whatever they hold. -/
theorem Tree.evaluate_count {read : Address → Except Fault Float} {r : Range}
    (h : r.cells.length ≤ maxSweep) :
    (Tree.aggregate .count r).evaluate read = .ok (Float.ofNat r.cells.length) := by
  have hlimit : maxSweep < 2 ^ 53 := by decide
  rw [Tree.evaluate, sweep_of_length_le h]
  simp only [Aggregate.apply, Aggregate.reduce?, List.length_map]
  rw [finite, if_pos (isFinite_ofNat (Nat.lt_of_le_of_lt h hlimit))]

namespace Grid

/-- A cell that is referred to has the number of its text one level further down, or zero outside the
grid, and never stops the program. Only the range itself can keep it from being swept: it is not when
its size is above the limit, and the program stops in place of refusing it if and only if counting it
or naming it leaves the words. A range of a size within the limit gives as many numbers as the size
says, at each place that of the cell by itself, or zero for a fault. So the cells of a range are counted
rightly, up to the largest number of cells that may be swept. -/
theorem resolve_agrees_with_evaluate_and_expand (g : Grid) (level : Nat) :
    (∀ a text, g.raw? a = some text →
      g.resolve a level = (g.evaluate text (level + 1)).map Value.amount) ∧
    (∀ a, g.raw? a = none → g.resolve a level = .ok 0) ∧
    (∀ a, g.resolve a level ≠ .error .overflow) ∧
    (∀ (r : Range) (n : Nat), r.size? = some n →
      ((∃ fault, g.expand r level = .error fault) ↔ maxSweep < n)) ∧
    (∀ r : Range, r.size? = none → g.expand r level = .error .overflow) ∧
    (∀ (r : Range) (fault : Fault), g.expand r level = .error fault ↔
      maxSweep < r.cells.length ∧ fault = if r.LeavesWords then .overflow else .rangeTooLarge r) ∧
    (∀ (r : Range) (n : Nat), r.size? = some n → n ≤ maxSweep →
      ∃ xs, g.expand r level = .ok xs ∧ xs.length = n ∧ r.cells.length = n ∧
        ∀ i < n, ∃ a, r.cells[i]? = some a ∧
          a.row.toNat = r.first.row.toNat + i / r.width ∧
          a.col.toNat = r.first.col.toNat + i % r.width ∧
          xs[i]? = some ((g.resolve a level).toOption.getD 0)) ∧
    ∀ r : Range, r.cells.length ≤ maxSweep → ∃ x,
      (Tree.aggregate .count r).evaluate (g.resolve · level) = .ok x ∧
        exactValue? x = some (r.cells.length : ℚ) := by
  have hmax : maxSweep < Range.maxSize := by decide
  refine ⟨fun a text => resolve_eq_evaluate, fun a => resolve_of_raw?_eq_none,
    fun a => resolve_ne_overflow g a level, fun r n hsize => ?_,
    fun r => expand_of_size?_eq_none, fun r fault => expand_eq_error_iff, fun r n hsize hn => ?_,
    fun r hcells => ?_⟩
  · rw [exists_expand_eq_error_iff, ← Nat.not_le, ← Nat.not_le, Range.size?_le_iff hmax hsize]
  · have hcells : r.cells.length = n := by
      have hmin := Range.eq_min_of_size? hsize
      omega
    refine ⟨_, sweep_of_length_le (hcells ▸ hn), (List.length_map _).trans hcells, hcells,
      fun i hi => ?_⟩
    -- The sweep maps the list of cells, so a number stands where its cell does.
    obtain ⟨a, ha, hrow, hcol⟩ := Range.exists_getElem?_cells (hcells ▸ hi)
    exact ⟨a, ha, hrow, hcol, by rw [List.getElem?_map, ha, Option.map_some]⟩
  · have hlimit : maxSweep < 2 ^ 53 := by decide
    exact ⟨_, Tree.evaluate_count hcells, exactValue?_ofNat (Nat.lt_of_le_of_lt hcells hlimit)⟩

/-- A column that runs to the last row of all has a size above the limit, and a row that runs over all
columns there are has more cells still; but neither of them is refused. -/
theorem expand_stops_at_last_row :
    (⟨⟨0, 1⟩, ⟨0, 18446744073709551615⟩⟩ : Range).size? = some 18446744073709551615 ∧
    maxSweep < 18446744073709551615 ∧
    empty.expand ⟨⟨0, 1⟩, ⟨0, 18446744073709551615⟩⟩ 0 = .error .overflow ∧
    (⟨⟨0, 0⟩, ⟨18446744073709551615, 0⟩⟩ : Range).size? = none ∧
    empty.expand ⟨⟨0, 0⟩, ⟨18446744073709551615, 0⟩⟩ 0 = .error .overflow := by
  refine ⟨by decide, by decide, ?_, by decide, ?_⟩
  · rw [expand, sweep_eq_error_iff]
    decide
  · rw [expand, sweep_eq_error_iff]
    decide

end Grid

end LessonGrid
