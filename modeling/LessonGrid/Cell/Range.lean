import LessonGrid.Cell.Address

/-!
# Ranges of cells

A range is the rectangle between two addresses, both included, swept row by row and within a row
from left to right. A range whose last address lies above or to the left of its first one is empty.
-/

set_option autoImplicit false

namespace LessonGrid

/-- The number of words from `low` to `high`, both included. -/
def spanSize (low high : UInt64) : Nat :=
  if low ≤ high then high.toNat - low.toNat + 1 else 0

/-- The first words, at most `count` of them, of those from `low` to `high`. -/
def leadingSpan (count : Nat) (low high : UInt64) : List UInt64 :=
  (List.range (min count (spanSize low high))).map fun i => low + i.toUInt64

/-- The words from `low` to `high`, both included, in increasing order. -/
def span (low high : UInt64) : List UInt64 :=
  leadingSpan (spanSize low high) low high

/-- A rectangle of cells. -/
structure Range where
  first : Address
  last : Address
  deriving DecidableEq, Repr, Inhabited

namespace Range

/-- The range that a text writes: two addresses with a colon between them. The text is cut at its
first colon. -/
def ofChars? (cs : List Char) : Option Range :=
  match cs.dropWhile (· != ':') with
  | [] => none
  | _ :: after => do
    let first ← Address.ofChars? (cs.takeWhile (· != ':'))
    let last ← Address.ofChars? after
    some ⟨first, last⟩

/-- The text of a range: its two addresses with a colon between them. -/
def text? (r : Range) : Option (List Char) := do
  let first ← r.first.text?
  let last ← r.last.text?
  some (first ++ ':' :: last)

/-- A range with its ends the wrong way round, in rows or in columns, has no cells. -/
def isEmpty (r : Range) : Bool :=
  r.last.row < r.first.row || r.last.col < r.first.col

/-- The largest number that `size?` gives. -/
def maxSize : Nat :=
  UInt64.size - 1

/-- The number of cells. Rows and columns are counted in words, and the program stops where there are
too many of them for that; their product ends at the largest word. -/
def size? (r : Range) : Option Nat :=
  if r.isEmpty then some 0
  else do
    let rows ← Word.count? r.first.row r.last.row
    let cols ← Word.count? r.first.col r.last.col
    some (min (rows.toNat * cols.toNat) maxSize)

/-- The cells of a range in the order of the sweep. -/
def cells (r : Range) : List Address :=
  (span r.first.row r.last.row).flatMap fun row =>
    (span r.first.col r.last.col).map fun col => ⟨col, row⟩

/-- The first cells of the sweep, at most `count` of them; no more rows and columns are visited
than can be among them. -/
def leadingCells (r : Range) (count : Nat) : List Address :=
  ((leadingSpan count r.first.row r.last.row).flatMap fun row =>
    (leadingSpan count r.first.col r.last.col).map fun col => (⟨col, row⟩ : Address)).take count

/-- A range has a text when both its ends have one. -/
theorem text?_eq_none_iff {r : Range} :
    r.text? = none ↔ r.first.text? = none ∨ r.last.text? = none := by
  unfold text?
  cases r.first.text? <;> cases r.last.text? <;> simp

end Range

end LessonGrid
