/-!
# Columns

The five columns of a lesson grid, lettered `A` to `E`.
-/

set_option autoImplicit false

namespace LessonGrid

/-- A column of the grid. -/
inductive Column where
  | a
  | b
  | c
  | d
  | e
  deriving DecidableEq, Repr, Inhabited

namespace Column

/-- The columns from left to right. -/
def all : List Column :=
  [a, b, c, d, e]

/-- The position of a column, counted from zero. -/
def index : Column → Nat
  | a => 0
  | b => 1
  | c => 2
  | d => 3
  | e => 4

/-- The column at a position. -/
def ofIndex? (i : Nat) : Option Column :=
  all[i]?

/-- The capital letter of a column. -/
def letter : Column → Char
  | a => 'A'
  | b => 'B'
  | c => 'C'
  | d => 'D'
  | e => 'E'

/-- The column of a letter in either case. -/
def ofLetter? (l : Char) : Option Column :=
  match l.toUpper with
  | 'A' => some a
  | 'B' => some b
  | 'C' => some c
  | 'D' => some d
  | 'E' => some e
  | _ => none

/-- The heading under which a lesson file keeps a column. -/
def heading : Column → String
  | a => "name"
  | b => "val1"
  | c => "c"
  | d => "d"
  | e => "e"

theorem mem_all (col : Column) : col ∈ all := by
  cases col <;> decide

@[simp] theorem ofIndex?_index (col : Column) : ofIndex? col.index = some col := by
  cases col <;> rfl

theorem index_lt (col : Column) : col.index < 5 := by
  cases col <;> decide

theorem ofIndex?_eq_some_iff {i : Nat} {col : Column} : ofIndex? i = some col ↔ col.index = i := by
  constructor
  · intro h
    match i, h with
    | 0, h => cases h; rfl
    | 1, h => cases h; rfl
    | 2, h => cases h; rfl
    | 3, h => cases h; rfl
    | 4, h => cases h; rfl
  · rintro rfl
    exact ofIndex?_index col

theorem ofIndex?_isSome_iff {i : Nat} : (ofIndex? i).isSome = true ↔ i < 5 := by
  simp [ofIndex?, all]

end Column

end LessonGrid
