import Mathlib
import LessonGrid.Cell.Address

/-!
# The spellings of an address

A formula can name the cells of the five columns, in every row that has a number. The spellings of such
an address are its text and what becomes of it when letters are put in the other case, and each of them
is read as the address.

Main statement: `Address.ofChars?_of_map_toUpper`.
-/

set_option autoImplicit false

namespace LessonGrid

/-! ## Letters and digits -/

/-- ASCII letters and digits are not blank. -/
theorem isBlank_of_isAlphanum {c : Char} (h : c.isAlphanum = true) : isBlank c = false := by
  simp only [Char.isAlphanum, Char.isAlpha, Char.isUpper, Char.isLower, Char.isDigit,
    Bool.or_eq_true, Bool.and_eq_true, decide_eq_true_eq, UInt32.le_iff_toNat_le, ge_iff_le,
    Char.toNat_val, Char.reduceVal, UInt32.reduceToNat] at h
  simp only [isBlank, Bool.or_eq_false_iff, Bool.and_eq_false_iff, decide_eq_false_iff_not,
    beq_eq_false_iff_ne]
  omega

/-- No letter is a digit. -/
theorem isDigit_eq_false_of_isAlpha {c : Char} (h : c.isAlpha = true) : c.isDigit = false := by
  simp only [Char.isAlpha, Char.isUpper, Char.isLower, Bool.or_eq_true, Bool.and_eq_true,
    decide_eq_true_eq, UInt32.le_iff_toNat_le, ge_iff_le, Char.reduceVal, UInt32.reduceToNat] at h
  simp only [Char.isDigit, Bool.and_eq_false_iff, decide_eq_false_iff_not, UInt32.le_iff_toNat_le,
    ge_iff_le, Char.reduceVal, UInt32.reduceToNat]
  omega

theorem isAlphanum_of_isDigit {c : Char} (h : c.isDigit = true) : c.isAlphanum = true := by
  simp [Char.isAlphanum, h]

theorem isAlphanum_of_isAlpha {c : Char} (h : c.isAlpha = true) : c.isAlphanum = true := by
  simp [Char.isAlphanum, h]

/-! ## Letter case -/

/-- Letters and digits are letters and digits in capitals too, and nothing else becomes one. -/
theorem isAlphanum_toUpper (c : Char) : c.toUpper.isAlphanum = c.isAlphanum := by
  by_cases hlower : c.isLower = true
  · have halpha : c.isAlpha = true := by simp [Char.isAlpha, hlower]
    simp [Char.isAlphanum, halpha]
  · rw [Char.toUpper_eq_of_not_isLower hlower]

/-- A word is a letter with letters and digits behind it. -/
def IsWord (cs : List Char) : Prop :=
  (∃ c ∈ cs.head?, c.isAlpha = true) ∧ ∀ c ∈ cs, c.isAlphanum = true

/-- A text is a word when it is one in capitals. -/
theorem IsWord.of_map_toUpper {cs text : List Char} (htext : IsWord text)
    (h : cs.map Char.toUpper = text) : IsWord cs := by
  subst h
  obtain ⟨⟨c, hc, halpha⟩, hall⟩ := htext
  constructor
  · rw [List.head?_map] at hc
    obtain ⟨d, hd, rfl⟩ := Option.mem_map.mp hc
    exact ⟨d, hd, by rwa [Char.isAlpha_toUpper_eq_isAlpha] at halpha⟩
  · intro c hc
    rw [← isAlphanum_toUpper]
    exact hall _ (List.mem_map_of_mem hc)

/-- A digit has no case, and no letter becomes one. -/
theorem toUpper_eq_of_isDigit {c : Char} (h : c.toUpper.isDigit = true ∨ c.isDigit = true) :
    c.toUpper = c := by
  by_cases hlower : c.isLower = true
  · have halpha : c.isAlpha = true := by simp [Char.isAlpha, hlower]
    have halpha' : c.toUpper.isAlpha = true := by rw [Char.isAlpha_toUpper_eq_isAlpha, halpha]
    simp [isDigit_eq_false_of_isAlpha halpha, isDigit_eq_false_of_isAlpha halpha'] at h
  · exact Char.toUpper_eq_of_not_isLower hlower

theorem map_toUpper_of_isDigit {ds : List Char} (hds : ∀ d ∈ ds, d.isDigit = true) :
    ds.map Char.toUpper = ds := calc
  ds.map Char.toUpper = ds.map id :=
    List.map_congr_left fun d hd => toUpper_eq_of_isDigit (.inr (hds d hd))
  _ = ds := List.map_id ds

/-- A text that is a numeral in capitals is that numeral. -/
theorem eq_of_map_toUpper_isDigit {cs ds : List Char} (h : cs.map Char.toUpper = ds)
    (hds : ∀ d ∈ ds, d.isDigit = true) : cs = ds := by
  have hcs : ∀ c ∈ cs, c.isDigit = true := by
    intro c hc
    have hdigit : c.toUpper.isDigit = true := hds _ (h ▸ List.mem_map_of_mem hc)
    rwa [toUpper_eq_of_isDigit (.inl hdigit)] at hdigit
  rw [← h, map_toUpper_of_isDigit hcs]

/-! ## Addresses -/

namespace Address

variable {a : Address} {cs : List Char}

/-- The cells that a formula can name: those of the five columns in the rows whose number is a
word. -/
def Nameable (a : Address) : Prop :=
  a.col.toNat ≤ 4 ∧ a.row.toNat + 1 < UInt64.size

/-- An address that a formula can name is the one of a column and a row. -/
theorem Nameable.exists_ofColumn (ha : a.Nameable) :
    ∃ col row, row + 1 < UInt64.size ∧ a = ofColumn col row := by
  obtain ⟨hcol, hrow⟩ := ha
  have hcolumn : (Column.ofIndex? a.col.toNat).isSome = true :=
    Column.ofIndex?_isSome_iff.mpr (Nat.lt_succ_of_le hcol)
  obtain ⟨col, hcol⟩ := Option.isSome_iff_exists.mp hcolumn
  refine ⟨col, a.row.toNat, hrow, eq_of_column?_of_row hcol (column?_ofColumn _ _) ?_⟩
  simp [ofColumn]

theorem text?_ofColumn (col : Column) {row : Nat} (hrow : row + 1 < UInt64.size) :
    (ofColumn col row).text? = some (col.letter :: Numeral.digits (row + 1)) := by
  have hword : (row + 1).toUInt64.toNat = row + 1 := Nat.mod_eq_of_lt hrow
  have hnumber : (ofColumn col row).rowNumber? = some (row + 1).toUInt64 := by
    rw [rowNumber?_eq_some_iff, hword, ofColumn]
    exact congrArg (· + 1) (Nat.mod_eq_of_lt (Nat.lt_of_succ_lt hrow)).symm
  simp only [text?, hnumber, Option.map_some, column?_ofColumn, hword]

/-- An address that a formula can name has a text. -/
theorem Nameable.exists_text? (ha : a.Nameable) : ∃ text, a.text? = some text := by
  obtain ⟨col, row, hrow, rfl⟩ := ha.exists_ofColumn
  exact ⟨_, text?_ofColumn col hrow⟩

/-- The text of an address that a formula can name is a word. -/
theorem isWord_of_text? (ha : a.Nameable) (h : a.text? = some cs) : IsWord cs := by
  obtain ⟨col, row, hrow, rfl⟩ := ha.exists_ofColumn
  obtain rfl := Option.some.inj ((text?_ofColumn col hrow).symm.trans h)
  have hletter : col.letter.isAlpha = true := by cases col <;> decide
  refine ⟨⟨col.letter, rfl, hletter⟩, List.forall_mem_cons.mpr ⟨isAlphanum_of_isAlpha hletter, ?_⟩⟩
  exact fun _ hc => isAlphanum_of_isDigit (Numeral.isDigit_of_mem_digits hc)

/-- Every spelling of an address that a formula can name, in capitals and small letters as may be, is
read as the address. -/
theorem ofChars?_of_map_toUpper (ha : a.Nameable) (h : a.text? = some (cs.map Char.toUpper)) :
    ofChars? cs = some a := by
  have hword : IsWord cs := (isWord_of_text? ha h).of_map_toUpper rfl
  have htrim : trim cs = cs := trim_eq_self fun c hc => isBlank_of_isAlphanum (hword.2 c hc)
  obtain ⟨col, row, hrow, rfl⟩ := ha.exists_ofColumn
  rw [text?_ofColumn col hrow] at h
  obtain ⟨l, ds, rfl, hletter, hdigits⟩ := List.map_eq_cons_iff.mp (Option.some.inj h).symm
  obtain rfl : ds = Numeral.digits (row + 1) :=
    eq_of_map_toUpper_isDigit hdigits fun _ => Numeral.isDigit_of_mem_digits
  have hcolumn : Column.ofLetter? l = some col := by
    rw [Column.ofLetter?, hletter]
    cases col <;> rfl
  simp [ofChars?, htrim, ofTrimmed?, hcolumn, Numeral.positive?_digits (Nat.succ_pos row), hrow]

/-- The text of an address that a formula can name is in capitals. -/
theorem map_toUpper_of_text? (ha : a.Nameable) (h : a.text? = some cs) :
    cs.map Char.toUpper = cs := by
  obtain ⟨col, row, hrow, rfl⟩ := ha.exists_ofColumn
  obtain rfl := Option.some.inj ((text?_ofColumn col hrow).symm.trans h)
  have hletter : col.letter.toUpper = col.letter := by cases col <;> rfl
  have hdigits : (Numeral.digits (row + 1)).map Char.toUpper = Numeral.digits (row + 1) :=
    map_toUpper_of_isDigit fun _ => Numeral.isDigit_of_mem_digits
  rw [List.map_cons, hletter, hdigits]

/-- An address that a formula can name is spelled by its text. -/
theorem Nameable.exists_spelling (ha : a.Nameable) :
    ∃ cs : List Char, a.text? = some (cs.map Char.toUpper) := by
  obtain ⟨cs, hcs⟩ := ha.exists_text?
  exact ⟨cs, (map_toUpper_of_text? ha hcs).symm ▸ hcs⟩

/-- The text of an address is read as the address. -/
theorem ofChars?_of_text? (ha : a.Nameable) (h : a.text? = some cs) : ofChars? cs = some a :=
  ofChars?_of_map_toUpper ha ((map_toUpper_of_text? ha h).symm ▸ h)

end Address

end LessonGrid
