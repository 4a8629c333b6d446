import Mathlib
import LessonGrid.Proofs.Cell.Range
import LessonGrid.Proofs.Dependency.Search
import LessonGrid.Proofs.Evaluation.Reads

/-!
# Dependencies and the cells that are read

A formula depends on the cells that it refers to by themselves and on the cells of its ranges, as long
as a range has at most `maxDependencyCells` of them. Evaluation sweeps larger ranges too, up to
`maxSweep` cells. So every dependency is read, and a cell that is read is a dependency unless the
formula reads it in ranges between the two limits alone.

Main statements: `mem_dependencies_iff` and `dependencies_are_reads_of_small_ranges`.
-/

set_option autoImplicit false

namespace LessonGrid

variable {text : String} {body : List Char} {t : Tree} {a : Address}

/-! ## The cells of the references -/

theorem mem_eraseRepsBy_loop_iff {α : Type} [DecidableEq α] {x first : α} {xs acc : List α} :
    x ∈ List.eraseRepsBy.loop (· == ·) first xs acc ↔ x = first ∨ x ∈ xs ∨ x ∈ acc := by
  induction xs generalizing first acc with
  | nil => simp [List.eraseRepsBy.loop, or_comm]
  | cons y ys ih =>
    unfold List.eraseRepsBy.loop
    split
    · next heq =>
      obtain rfl : first = y := by simpa using heq
      rw [ih, List.mem_cons]
      tauto
    · rw [ih, List.mem_cons, List.mem_cons]
      tauto

/-- Leaving out repetitions of a neighbour loses no element. -/
theorem mem_eraseReps_iff {α : Type} [DecidableEq α] {x : α} {xs : List α} :
    x ∈ xs.eraseReps ↔ x ∈ xs := by
  cases xs with
  | nil => rfl
  | cons y ys =>
    have hloop : x ∈ List.eraseRepsBy.loop (· == ·) y ys [] ↔ x = y ∨ x ∈ ys ∨ x ∈ [] :=
      mem_eraseRepsBy_loop_iff
    simpa [List.eraseReps, List.eraseRepsBy] using hloop

theorem Reference.mem_cells_iff {ref : Reference} : a ∈ ref.cells ↔
    ref = .cell a ∨ ∃ r, ref = .range r ∧ r.cells.length ≤ maxDependencyCells ∧ a ∈ r.cells := by
  cases ref with
  | cell b => simp [cells, eq_comm]
  | range r =>
    have hsize := @Range.exists_size?_le_iff r maxDependencyCells (by decide)
    cases hcount : r.size? with
    | none => simp [cells, hcount, ← hsize]
    | some n => by_cases hn : n ≤ maxDependencyCells <;> simp [cells, hcount, ← hsize, hn]

/-- A formula depends on the cells that it refers to by themselves, and on those of its ranges of at
most `maxDependencyCells` cells. -/
theorem mem_dependencies_iff (hbody : formulaBody? text = some body)
    (htree : Tree.ofBody body = .ok t) : a ∈ dependencies text ↔
      .cell a ∈ t.references ∨
        ∃ r, .range r ∈ t.references ∧ r.cells.length ≤ maxDependencyCells ∧ a ∈ r.cells := by
  simp only [dependencies, hbody, htree, mem_eraseReps_iff, List.mem_flatMap,
    Reference.mem_cells_iff]
  constructor
  · rintro ⟨ref, href, rfl | ⟨r, rfl, hr⟩⟩
    · exact .inl href
    · exact .inr ⟨r, href, hr⟩
  · rintro (href | ⟨r, href, hr⟩)
    · exact ⟨_, href, .inl rfl⟩
    · exact ⟨_, href, .inr ⟨r, rfl, hr⟩⟩

/-- A formula depends on every cell that it refers to by itself. -/
theorem Names.mem_dependencies (h : Names text a) : a ∈ dependencies text := by
  obtain ⟨body, t, hbody, htree, ha⟩ := h
  exact (mem_dependencies_iff hbody htree).mpr (.inl ha)

/-! ## The cells that are read -/

/-- What evaluation reads: the cells that a tree refers to by themselves and those of the ranges that
are swept. -/
theorem Tree.reads_iff_expand (g : Grid) (level : Nat) : t.Reads a ↔
    .cell a ∈ t.references ∨
      ∃ r, .range r ∈ t.references ∧ (∃ xs, g.expand r level = .ok xs) ∧ a ∈ r.cells := by
  simp only [Tree.Reads, Grid.expand_isOk_iff]

/-- Every dependency is read. -/
theorem reads_of_mem_dependencies (hbody : formulaBody? text = some body)
    (htree : Tree.ofBody body = .ok t) (h : a ∈ dependencies text) : t.Reads a := by
  have hlimits : maxDependencyCells ≤ maxSweep := by decide
  rcases (mem_dependencies_iff hbody htree).mp h with ha | ⟨r, hr, hsize, ha⟩
  · exact .inl ha
  · exact .inr ⟨r, hr, Nat.le_trans hsize hlimits, ha⟩

/-- A cell that is read is a dependency, or it is in a range that is swept and too large to count. -/
theorem mem_dependencies_or_of_reads (hbody : formulaBody? text = some body)
    (htree : Tree.ofBody body = .ok t) (h : t.Reads a) : a ∈ dependencies text ∨
      ∃ r, .range r ∈ t.references ∧ a ∈ r.cells ∧
        maxDependencyCells < r.cells.length ∧ r.cells.length ≤ maxSweep := by
  rw [mem_dependencies_iff hbody htree]
  rcases h with ha | ⟨r, hr, hsize, ha⟩
  · exact .inl (.inl ha)
  · by_cases hsmall : r.cells.length ≤ maxDependencyCells
    · exact .inl (.inr ⟨r, hr, hsmall, ha⟩)
    · exact .inr ⟨r, hr, ha, Nat.lt_of_not_le hsmall, hsize⟩

/-- A formula that can be read depends on the cells that it refers to by themselves and on those of
its ranges of at most `maxDependencyCells` cells, and on nothing else. Evaluation, which sweeps every
range of at most `maxSweep` cells, reads all of them. It reads no other cell unless the cell is in a
range between the two limits; so where the formula has no such range, the cell that holds it has an
edge to each cell that is read, and its value rests on these alone. -/
theorem dependencies_are_reads_of_small_ranges (hbody : formulaBody? text = some body)
    (htree : Tree.ofBody body = .ok t) :
    (∀ a, a ∈ dependencies text ↔ .cell a ∈ t.references ∨
      ∃ r, .range r ∈ t.references ∧ r.cells.length ≤ maxDependencyCells ∧ a ∈ r.cells) ∧
    (∀ (g : Grid) (level : Nat) (a : Address), (.cell a ∈ t.references ∨
        ∃ r, .range r ∈ t.references ∧ (∃ xs, g.expand r level = .ok xs) ∧ a ∈ r.cells) ↔
      (a ∈ dependencies text ∨ ∃ r, .range r ∈ t.references ∧ a ∈ r.cells ∧
        maxDependencyCells < r.cells.length ∧ r.cells.length ≤ maxSweep)) ∧
    ((∀ r, .range r ∈ t.references → maxDependencyCells < r.cells.length → maxSweep < r.cells.length) →
      (∀ (g : Grid) (b a : Address), g.raw? b = some text → (g.Edge b a ↔ t.Reads a)) ∧
      ∀ read read' : Address → Except Fault Float,
        (∀ a ∈ dependencies text, read a = read' a) → t.evaluate read = t.evaluate read') := by
  refine ⟨fun a => mem_dependencies_iff hbody htree, ?_, ?_⟩
  · intro g level a
    rw [← Tree.reads_iff_expand g level]
    constructor
    · exact mem_dependencies_or_of_reads hbody htree
    · rintro (h | ⟨r, hr, ha, _, hsize⟩)
      · exact reads_of_mem_dependencies hbody htree h
      · exact .inr ⟨r, hr, hsize, ha⟩
  · intro hranges
    have hexact : ∀ a, a ∈ dependencies text ↔ t.Reads a := by
      intro a
      refine ⟨reads_of_mem_dependencies hbody htree, fun h => ?_⟩
      rcases mem_dependencies_or_of_reads hbody htree h with h | ⟨r, hr, _, hlarge, hsize⟩
      · exact h
      · exact absurd (hranges r hr hlarge) (Nat.not_lt_of_le hsize)
    refine ⟨fun g b a hraw => (Grid.edge_iff_of_raw? hraw).trans (hexact a), ?_⟩
    intro read read' hread
    exact Tree.evaluate_congr fun a ha => hread a ((hexact a).mpr ha)

/-- A sum of two cells and a cell by itself: no range is large, so the three are all that is read, and
all of them are dependencies. -/
theorem dependencies_of_sum_plus_cell :
    formulaBody? "=SUM(A1:B1)+C1" = some "SUM(A1:B1)+C1".toList ∧
    Tree.ofBody "SUM(A1:B1)+C1".toList =
      .ok (.binary .add (.aggregate .sum ⟨⟨0, 0⟩, ⟨1, 0⟩⟩) (.cell ⟨2, 0⟩)) ∧
    ∀ (g : Grid) (b a : Address), g.raw? b = some "=SUM(A1:B1)+C1" →
      (g.Edge b a ↔
        (Tree.binary .add (.aggregate .sum ⟨⟨0, 0⟩, ⟨1, 0⟩⟩) (.cell ⟨2, 0⟩)).Reads a) := by
  have hbody : formulaBody? "=SUM(A1:B1)+C1" = some "SUM(A1:B1)+C1".toList := by cbv
  have htree : Tree.ofBody "SUM(A1:B1)+C1".toList =
      .ok (.binary .add (.aggregate .sum ⟨⟨0, 0⟩, ⟨1, 0⟩⟩) (.cell ⟨2, 0⟩)) := by cbv
  refine ⟨hbody, htree, ((dependencies_are_reads_of_small_ranges hbody htree).2.2 ?_).1⟩
  intro r hr hlarge
  obtain rfl : r = ⟨⟨0, 0⟩, ⟨1, 0⟩⟩ := by simpa [Tree.references] using hr
  exact absurd hlarge (by decide)

/-- A sum of 10005 cells, the first cell of the grid among them. -/
def sumOfManyCells : String :=
  "=SUM(A1:E2001)"

/-- The range of `sumOfManyCells` is swept, and its first cell is no dependency all the same. In that
cell the formula reads itself, and no cycle is found. -/
theorem dependencies_miss_cell_of_swept_range :
    (∃ body t r, formulaBody? sumOfManyCells = some body ∧ Tree.ofBody body = .ok t ∧
      .range r ∈ t.references ∧ (∀ (g : Grid) (level : Nat), ∃ xs, g.expand r level = .ok xs) ∧
      ⟨0, 0⟩ ∈ r.cells ∧ ⟨0, 0⟩ ∉ dependencies sumOfManyCells) ∧
    (Grid.mk [⟨sumOfManyCells, "", "", "", ""⟩]).findCycle? ⟨0, 0⟩ = none := by
  have hbody : formulaBody? sumOfManyCells = some "SUM(A1:E2001)".toList := by cbv
  have htree : Tree.ofBody "SUM(A1:E2001)".toList =
      .ok (.aggregate .sum ⟨⟨0, 0⟩, ⟨4, 2000⟩⟩) := by cbv
  have hnone : dependencies sumOfManyCells = [] := by cbv
  refine ⟨⟨_, _, ⟨⟨0, 0⟩, ⟨4, 2000⟩⟩, hbody, htree, List.mem_singleton_self _, ?_, ?_, ?_⟩, ?_⟩
  · intro g level
    exact Grid.expand_isOk_iff.mpr (by rw [Range.length_cells]; decide)
  · exact Range.mem_cells_iff.mpr (by decide)
  · simp [hnone]
  · cbv

end LessonGrid
