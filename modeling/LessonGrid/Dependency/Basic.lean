import LessonGrid.Formula.Parse
import LessonGrid.Grid.Basic
import LessonGrid.Grid.Content

/-!
# Dependencies

The cells that a formula names, by themselves or in a range. The dependencies of the cells of a grid
make a graph: there is an edge from every cell of the grid to each of its dependencies.
-/

set_option autoImplicit false

namespace LessonGrid

/-- The largest number of cells of a range that count as dependencies; a larger range gives none. -/
def maxDependencyCells : Nat :=
  10000

/-- The cells that a reference names. The ranges of a formula can all be counted. -/
def Reference.cells : Reference → List Address
  | .cell a => [a]
  | .range r =>
    match r.size? with
    | some n => if n ≤ maxDependencyCells then r.cells else []
    | none => []

/-- The cells that a text depends on, in the order of its references. A cell that follows itself is
listed once. Literals and formulas at fault depend on nothing. -/
def dependencies (text : String) : List Address :=
  match formulaBody? text with
  | none => []
  | some body =>
    match Tree.ofBody body with
    | .error _ => []
    | .ok tree => (tree.references.flatMap Reference.cells).eraseReps

/-- The cells that a cell depends on; those outside the grid depend on nothing. -/
def Grid.dependencies (g : Grid) (a : Address) : List Address :=
  match g.raw? a with
  | none => []
  | some text => LessonGrid.dependencies text

end LessonGrid
