import LessonGrid.Cell.Column
import LessonGrid.Cell.Word
import LessonGrid.Text.Blank
import LessonGrid.Text.Numeral

/-!
# Cell addresses

An address names a cell by column and row, both counted from zero in 64-bit words. Its text is the
column's letter and the row's number, counted from one: the first cell is `A1`. Addresses with
columns past `E`, or with rows that no grid has, are addresses too; they name no cell of a grid. The
last row of all has no number in words, so an address there has no text.
-/

set_option autoImplicit false

namespace LessonGrid

/-- The place of a cell. -/
structure Address where
  col : UInt64
  row : UInt64
  deriving DecidableEq, Repr, Hashable, Inhabited

namespace Address

/-- The address of a column and a row of a grid. -/
def ofColumn (col : Column) (row : Nat) : Address :=
  ⟨col.index.toUInt64, row.toUInt64⟩

/-- The column of an address, when it is one of the grid's. -/
def column? (a : Address) : Option Column :=
  Column.ofIndex? a.col.toNat

/-- The row's number in text, counted from one, unless it lies past the last word. -/
def rowNumber? (a : Address) : Option UInt64 :=
  Word.sum? a.row 1

/-- The address that a text without blanks around it writes: a letter in either case and the row's
number, which fits in a word and starts with no zero. -/
def ofTrimmed? : List Char → Option Address
  | [] => none
  | l :: numeral => do
    let col ← Column.ofLetter? l
    let number ← Numeral.positive? numeral
    if number < UInt64.size then some (ofColumn col (number - 1)) else none

/-- The address that a text writes, blanks around it left aside. -/
def ofChars? (cs : List Char) : Option Address :=
  ofTrimmed? (trim cs)

/-- The text of an address: `C3`, or column position and row number as in `#7:3` for a column that
has no letter. The program stops at an address whose row has no number. -/
def text? (a : Address) : Option (List Char) :=
  a.rowNumber?.map fun number =>
    match a.column? with
    | some col => col.letter :: Numeral.digits number.toNat
    | none => '#' :: Numeral.digits a.col.toNat ++ ':' :: Numeral.digits number.toNat

@[simp] theorem column?_ofColumn (col : Column) (row : Nat) :
    (ofColumn col row).column? = some col := by
  cases col <;> rfl

theorem rowNumber?_eq_some_iff {a : Address} {number : UInt64} :
    a.rowNumber? = some number ↔ number.toNat = a.row.toNat + 1 :=
  Word.sum?_eq_some_iff

/-- The last row of all is the only one without a number. -/
theorem rowNumber?_eq_none_iff {a : Address} :
    a.rowNumber? = none ↔ a.row.toNat = UInt64.size - 1 := by
  have hrow := a.row.toNat_lt_size
  have hone : (1 : UInt64).toNat = 1 := rfl
  rw [rowNumber?, Word.sum?_eq_none_iff, hone]
  omega

theorem text?_eq_none_iff {a : Address} : a.text? = none ↔ a.row.toNat = UInt64.size - 1 := by
  rw [text?, Option.map_eq_none_iff, rowNumber?_eq_none_iff]

/-- An address whose column is one of the grid's is known by that column and its row. -/
theorem eq_of_column?_of_row {a b : Address} {col : Column} (ha : a.column? = some col)
    (hb : b.column? = some col) (hrow : a.row = b.row) : a = b := by
  have hcol : a.col = b.col := by
    rw [← UInt64.toNat_inj, ← Column.ofIndex?_eq_some_iff.mp ha, ← Column.ofIndex?_eq_some_iff.mp hb]
  cases a
  cases b
  simp_all

end Address

end LessonGrid
