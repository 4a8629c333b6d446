import LessonGrid.Formula.Token

/-!
# Formula trees

The structure of a formula, and the cells and ranges that it refers to.
-/

set_option autoImplicit false

namespace LessonGrid

/-- A formula as an expression. -/
inductive Tree where
  | number (value : Float)
  | cell (address : Address)
  | aggregate (function : Aggregate) (range : Range)
  | negation (operand : Tree)
  | binary (op : Operator) (left right : Tree)
  deriving DecidableEq, Repr, Inhabited

/-- What a formula refers to: a cell by itself, or a range by a function. -/
inductive Reference where
  | cell (address : Address)
  | range (range : Range)
  deriving DecidableEq, Repr, Inhabited

/-- The text of a reference. -/
def Reference.text? : Reference → Option (List Char)
  | cell a => a.text?
  | range r => r.text?

namespace Tree

/-- The references of a formula from left to right. -/
def references : Tree → List Reference
  | number _ => []
  | cell a => [.cell a]
  | aggregate _ r => [.range r]
  | negation t => t.references
  | binary _ left right => left.references ++ right.references

/-- The number of nodes on the longest way from the root to a leaf. -/
def height : Tree → Nat
  | negation t => t.height + 1
  | binary _ left right => max left.height right.height + 1
  | _ => 1

end Tree

end LessonGrid
