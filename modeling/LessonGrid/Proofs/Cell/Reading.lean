import LessonGrid.Cell.Range
import LessonGrid.Proofs.Cell.Spelling
import LessonGrid.Proofs.Text.Cut

/-!
# Reading addresses and ranges

An address is read off its spellings, with blanks around them as may be, and off nothing else: what is
read is in capitals the text of what it is read as. A range is read off two addresses with one colon
between them.

Main statement: `addresses_and_texts_correspond`.
-/

set_option autoImplicit false

namespace LessonGrid

/-- Nothing but blanks is dropped from a text. -/
theorem mem_trim {c : Char} {cs : List Char} (h : c ∈ cs) (hc : isBlank c = false) : c ∈ trim cs := by
  have hdrop : ∀ ds : List Char, c ∈ ds → c ∈ ds.dropWhile isBlank := fun ds hds => by
    rw [← List.takeWhile_append_dropWhile (p := isBlank) (l := ds), List.mem_append] at hds
    refine hds.resolve_left fun hfront => ?_
    rw [List.mem_takeWhile_imp hfront] at hc
    cases hc
  rw [trim, trimRight, List.mem_reverse]
  exact hdrop _ (List.mem_reverse.mpr (hdrop cs h))

/-! ## Columns -/

theorem Column.ofLetter?_eq_some_iff {l : Char} {col : Column} :
    ofLetter? l = some col ↔ l.toUpper = col.letter := by
  constructor
  · intro h
    unfold ofLetter? at h
    split at h <;> cases h <;> assumption
  · intro h
    rw [ofLetter?, h]
    cases col <;> rfl

theorem Column.toUpper_eq_letter_iff {l : Char} {col : Column} :
    l.toUpper = col.letter ↔ l = col.letter ∨ l = col.letter.toLower := by
  constructor
  · intro h
    by_cases hlower : l.isLower = true
    · have hself : l.toLower = l := Char.toLower_eq_of_not_isUpper fun hupper =>
        Char.not_isUpper_of_isLower hlower hupper
      rw [← h, Char.toLower_toUpper_eq_toLower]
      exact .inr hself.symm
    · rw [Char.toUpper_eq_of_not_isLower hlower] at h
      exact .inl h
  · rintro (rfl | rfl) <;> cases col <;> rfl

/-! ## Addresses -/

namespace Address

variable {a : Address} {cs : List Char}

/-- A letter and digits write an address: the letter is its column's in either case, and the digits are
the number of its row, counted from one, which starts with no zero and is a word. -/
structure Written (a : Address) (l : Char) (ds : List Char) : Prop where
  letter : ∃ col : Column, a.col.toNat = col.index ∧ (l = col.letter ∨ l = col.letter.toLower)
  digits : ∀ d ∈ ds, d.isDigit = true
  shortest : ds.head? ≠ some '0'
  positive : 1 ≤ Numeral.value ds
  word : Numeral.value ds ≤ 2 ^ 64 - 1
  row : a.row.toNat = Numeral.value ds - 1

theorem toNat_ofColumn (col : Column) {row : Nat} (hrow : row + 1 < UInt64.size) :
    (ofColumn col row).col.toNat = col.index ∧ (ofColumn col row).row.toNat = row := by
  have hcol := col.index_lt
  simp only [UInt64.size] at hrow
  simp only [ofColumn, Nat.toUInt64_eq, UInt64.toNat_ofNat']
  omega

theorem nameable_ofColumn (col : Column) {row : Nat} (hrow : row + 1 < UInt64.size) :
    (ofColumn col row).Nameable := by
  rw [Nameable, (toNat_ofColumn col hrow).1, (toNat_ofColumn col hrow).2]
  exact ⟨Nat.le_of_lt_succ col.index_lt, hrow⟩

/-- What an address is read off is in capitals its text. -/
theorem ofChars?_eq_some_iff :
    ofChars? cs = some a ↔ a.Nameable ∧ a.text? = some ((trim cs).map Char.toUpper) := by
  constructor
  · intro h
    rw [ofChars?] at h
    cases htrim : trim cs with
    | nil => simp [htrim, ofTrimmed?] at h
    | cons l ds =>
      simp only [htrim, ofTrimmed?, Option.bind_eq_bind, Option.bind_eq_some_iff,
        Option.ite_none_right_eq_some, Option.some.injEq] at h
      obtain ⟨col, hcol, number, hnumber, hword, rfl⟩ := h
      obtain ⟨hpos, rfl⟩ := Numeral.positive?_eq_some_iff.mp hnumber
      have hrow : number - 1 + 1 = number := Nat.sub_add_cancel hpos
      have hdigits : (Numeral.digits number).map Char.toUpper = Numeral.digits number :=
        map_toUpper_of_isDigit fun _ => Numeral.isDigit_of_mem_digits
      refine ⟨nameable_ofColumn col (hrow.symm ▸ hword), ?_⟩
      rw [text?_ofColumn col (hrow.symm ▸ hword), hrow, List.map_cons, hdigits,
        Column.ofLetter?_eq_some_iff.mp hcol]
  · rintro ⟨ha, htext⟩
    have hword : IsWord (trim cs) := (isWord_of_text? ha htext).of_map_toUpper rfl
    have htrim : trim (trim cs) = trim cs :=
      trim_eq_self fun c hc => isBlank_of_isAlphanum (hword.2 c hc)
    have hread := ofChars?_of_map_toUpper ha htext
    rwa [ofChars?, htrim] at hread

/-- The texts that write an address are those that in capitals are its text. -/
theorem written_iff : (∃ l ds, cs = l :: ds ∧ a.Written l ds) ↔
    a.Nameable ∧ a.text? = some (cs.map Char.toUpper) := by
  constructor
  · rintro ⟨l, ds, rfl, ⟨col, hcol, hletter⟩, hdigits, hshortest, hpos, hword, hrow⟩
    have hsize : a.row.toNat + 1 < UInt64.size := by
      rw [UInt64.size]
      omega
    have hne : ds ≠ [] := by
      rintro rfl
      exact absurd hpos (by decide)
    have hcolumn : a = ofColumn col a.row.toNat :=
      eq_of_column?_of_row (Column.ofIndex?_eq_some_iff.mpr hcol.symm) (column?_ofColumn _ _)
        (by simp [ofColumn])
    rw [hcolumn, text?_ofColumn col hsize, List.map_cons, map_toUpper_of_isDigit hdigits,
      Column.toUpper_eq_letter_iff.mpr hletter, hrow, Nat.sub_add_cancel hpos,
      Numeral.digits_value hdigits hne hshortest, ← hrow]
    exact ⟨nameable_ofColumn col hsize, rfl⟩
  · rintro ⟨ha, htext⟩
    obtain ⟨col, row, hrow, rfl⟩ := ha.exists_ofColumn
    rw [text?_ofColumn col hrow] at htext
    obtain ⟨l, ds, rfl, hletter, hmap⟩ := List.map_eq_cons_iff.mp (Option.some.inj htext).symm
    obtain rfl := eq_of_map_toUpper_isDigit hmap fun _ => Numeral.isDigit_of_mem_digits
    have hword : row + 1 ≤ 2 ^ 64 - 1 := Nat.le_of_lt_succ hrow
    refine ⟨l, Numeral.digits (row + 1), rfl, ?_⟩
    exact {
      letter := ⟨col, (toNat_ofColumn col hrow).1, Column.toUpper_eq_letter_iff.mp hletter⟩
      digits := fun _ => Numeral.isDigit_of_mem_digits
      shortest := Numeral.head?_digits_ne_zero (Nat.succ_pos row)
      positive := by rw [Numeral.value_digits]; exact Nat.succ_pos row
      word := by rw [Numeral.value_digits]; exact hword
      row := by rw [Numeral.value_digits]; exact (toNat_ofColumn col hrow).2 }

/-- A text that an address is read off is a word, when no blanks are in it. -/
theorem isWord_of_ofChars? (h : ofChars? cs = some a) (hcs : ∀ c ∈ cs, isBlank c = false) :
    IsWord cs := by
  obtain ⟨ha, htext⟩ := ofChars?_eq_some_iff.mp h
  rw [trim_eq_self hcs] at htext
  exact (isWord_of_text? ha htext).of_map_toUpper rfl

/-- No colon is in a text that an address is read off. -/
theorem colon_not_mem_of_ofChars? (h : ofChars? cs = some a) : ':' ∉ cs := fun hcolon => by
  obtain ⟨ha, htext⟩ := ofChars?_eq_some_iff.mp h
  have htrim : ':' ∈ trim cs := mem_trim hcolon (by decide)
  have hupper : ':'.toUpper ∈ (trim cs).map Char.toUpper := List.mem_map_of_mem htrim
  exact absurd ((isWord_of_text? ha htext).2 _ hupper) (by decide)

end Address

/-! ## Ranges -/

namespace Range

variable {r : Range} {cs : List Char}

/-- A range is read off two addresses with one colon between them. -/
theorem ofChars?_eq_some_iff : ofChars? cs = some r ↔ ∃ us vs, cs = us ++ ':' :: vs ∧
    Address.ofChars? us = some r.first ∧ Address.ofChars? vs = some r.last := by
  constructor
  · intro h
    unfold ofChars? at h
    split at h
    · cases h
    · next c after hcut =>
      obtain ⟨rfl, hcs⟩ := dropWhile_ne_eq_cons_iff.mp hcut
      simp only [Option.bind_eq_bind, Option.bind_eq_some_iff, Option.some.injEq] at h
      obtain ⟨first, hfirst, last, hlast, rfl⟩ := h
      exact ⟨_, after, hcs, hfirst, hlast⟩
  · rintro ⟨us, vs, rfl, hfirst, hlast⟩
    have hcolon := Address.colon_not_mem_of_ofChars? hfirst
    simp only [ofChars?, dropWhile_ne_append hcolon, takeWhile_ne_append hcolon, hfirst, hlast,
      Option.bind_eq_bind, Option.bind_some]

/-- The text of a range is read as the range. -/
theorem exists_text?_of_nameable (hfirst : r.first.Nameable) (hlast : r.last.Nameable) :
    ∃ text, r.text? = some text ∧ ofChars? text = some r := by
  obtain ⟨us, hus⟩ := hfirst.exists_text?
  obtain ⟨vs, hvs⟩ := hlast.exists_text?
  refine ⟨us ++ ':' :: vs, by rw [text?, hus, hvs]; rfl, ?_⟩
  exact ofChars?_eq_some_iff.mpr
    ⟨us, vs, rfl, Address.ofChars?_of_text? hfirst hus, Address.ofChars?_of_text? hlast hvs⟩

/-- Every range that is read has a text, which is what it is read off without blanks and in capitals. -/
theorem text?_of_ofChars? {us vs : List Char} (hfirst : Address.ofChars? us = some r.first)
    (hlast : Address.ofChars? vs = some r.last) :
    r.text? = some ((trim us ++ ':' :: trim vs).map Char.toUpper) := by
  rw [text?, (Address.ofChars?_eq_some_iff.mp hfirst).2, (Address.ofChars?_eq_some_iff.mp hlast).2,
    List.map_append, List.map_cons]
  rfl

end Range

/-- Addresses and texts correspond. Around an address there may be blanks, and of what is between them
the letter may be in either case; that apart, an address is read off its text alone, and a range off the
texts of two addresses with a colon between them. Whatever can be read has a text. -/
theorem addresses_and_texts_correspond :
    (∀ (cs : List Char) (a : Address), Address.ofChars? cs = some a ↔
      ∃ l ds, trim cs = l :: ds ∧ a.Written l ds) ∧
    (∀ a : Address, a.Nameable → ∃ text, a.text? = some text ∧ Address.ofChars? text = some a) ∧
    (∀ r : Range, r.first.Nameable → r.last.Nameable →
      ∃ text, r.text? = some text ∧ Range.ofChars? text = some r) ∧
    ∀ (cs : List Char) (r : Range), Range.ofChars? cs = some r ↔
      ∃ us vs, cs = us ++ ':' :: vs ∧ ':' ∉ us ∧ ':' ∉ vs ∧
        Address.ofChars? us = some r.first ∧ Address.ofChars? vs = some r.last ∧
        r.text? = some ((trim us ++ ':' :: trim vs).map Char.toUpper) := by
  refine ⟨fun cs a => ?_, fun a ha => ?_, fun r => Range.exists_text?_of_nameable,
    fun cs r => ⟨fun h => ?_, fun h => ?_⟩⟩
  · rw [Address.ofChars?_eq_some_iff, Address.written_iff]
  · obtain ⟨text, htext⟩ := ha.exists_text?
    exact ⟨text, htext, Address.ofChars?_of_text? ha htext⟩
  · obtain ⟨us, vs, hcs, hfirst, hlast⟩ := Range.ofChars?_eq_some_iff.mp h
    exact ⟨us, vs, hcs, Address.colon_not_mem_of_ofChars? hfirst,
      Address.colon_not_mem_of_ofChars? hlast, hfirst, hlast, Range.text?_of_ofChars? hfirst hlast⟩
  · obtain ⟨us, vs, hcs, -, -, hfirst, hlast, -⟩ := h
    exact Range.ofChars?_eq_some_iff.mpr ⟨us, vs, hcs, hfirst, hlast⟩

theorem range_of_all_rows_reads_back :
    (⟨0, 0⟩ : Address).Nameable ∧ (⟨4, 18446744073709551614⟩ : Address).Nameable ∧
    ∃ text, Range.text? ⟨⟨0, 0⟩, ⟨4, 18446744073709551614⟩⟩ = some text ∧
      Range.ofChars? text = some ⟨⟨0, 0⟩, ⟨4, 18446744073709551614⟩⟩ := by
  have hfirst : (⟨0, 0⟩ : Address).Nameable := ⟨by decide, by decide⟩
  have hlast : (⟨4, 18446744073709551614⟩ : Address).Nameable := ⟨by decide, by decide⟩
  exact ⟨hfirst, hlast, addresses_and_texts_correspond.2.2.1 ⟨_, _⟩ hfirst hlast⟩

/-- The row behind the last one has no number that is a word. -/
example : Address.ofChars? "e18446744073709551615".toList = some ⟨4, 18446744073709551614⟩ ∧
    Address.ofChars? "e18446744073709551616".toList = none := by decide

end LessonGrid
