import LessonGrid.Proofs.Cell.Spelling
import LessonGrid.Proofs.Formula.Scan

/-!
# The words of a formula

What the scan makes of a piece of text when other text follows it. A number or a word goes on for as
long as it can, so the text behind it has to start with something else (`Apart`); with such a text behind
them, a number, the spelling of a cell and the spelling of a call are scanned to their token and nothing
more. Pieces are put together by `Scans.append`, and blanks may stand before any piece.

Main statements: `scans_number`, `scans_decimal`, `scans_cell` and `scans_call`.
-/

set_option autoImplicit false

namespace LessonGrid.Token

/-! ## Pieces of a text -/

/-- What may follow a number or a word without prolonging it. -/
def Apart (rest : List Char) : Prop :=
  ∀ c ∈ rest.head?, c.isAlphanum = false ∧ c ≠ '.'

/-- A piece of text is scanned to some tokens, whatever stands apart behind it. -/
def Scans (cs : List Char) (ts : List Token) : Prop :=
  ∀ rest us, Apart rest → scan rest = .ok us → scan (cs ++ rest) = .ok (ts ++ us)

variable {cs ds rest ws : List Char} {ts us : List Token} {t : Token} {c : Char}

theorem apart_nil : Apart [] := by
  intro c hc
  cases hc

theorem apart_cons (hc : c.isAlphanum = false) (hpoint : c ≠ '.') : Apart (c :: cs) := by
  intro d hd
  cases hd
  exact ⟨hc, hpoint⟩

theorem Apart.append (hcs : Apart cs) (hrest : Apart rest) : Apart (cs ++ rest) := by
  cases cs with
  | nil => exact hrest
  | cons c cs => exact hcs

/-- Blanks keep apart what stands apart. -/
theorem Apart.after_blanks (hws : isBlankText ws = true) (hcs : Apart cs) : Apart (ws ++ cs) := by
  refine Apart.append ?_ hcs
  intro c hc
  have hblank : isBlank c = true := List.all_eq_true.mp hws c (List.mem_of_mem_head? hc)
  constructor
  · cases halphanum : c.isAlphanum with
    | false => rfl
    | true =>
      rw [isBlank_of_isAlphanum halphanum] at hblank
      cases hblank
  · rintro rfl
    cases hblank

theorem scans_nil : Scans [] [] := by
  intro rest us _ hrest
  exact hrest

/-- Two pieces are scanned one after the other. -/
theorem Scans.append (hcs : Scans cs ts) (hds : Scans ds us) (hapart : Apart ds) :
    Scans (cs ++ ds) (ts ++ us) := by
  intro rest vs hrest hscan
  rw [List.append_assoc, List.append_assoc]
  exact hcs _ _ (hapart.append hrest) (hds _ _ hrest hscan)

/-- Blanks before a piece are passed by. -/
theorem Scans.after_blanks (hws : isBlankText ws = true) (hcs : Scans cs ts) :
    Scans (ws ++ cs) ts := by
  induction ws with
  | nil => exact hcs
  | cons w ws ih =>
    obtain ⟨hw, hws⟩ := Bool.and_eq_true_iff.mp (List.all_cons.symm.trans hws)
    intro rest us hrest hscan
    rw [List.append_assoc, List.cons_append, scan_of_blank _ hw, ← List.append_assoc]
    exact ih hws rest us hrest hscan

/-- A piece whose first token takes up all of it. -/
theorem scans_of_scanToken (hblank : isBlank c = false)
    (h : ∀ rest, Apart rest → scanToken c (cs ++ rest) = .ok (t, rest)) : Scans (c :: cs) [t] := by
  intro rest us hrest hscan
  have hcons := scan_of_scanToken_ok (Bool.eq_false_iff.mp hblank) (h rest hrest)
  rw [hscan] at hcons
  exact hcons

/-! ## Marks -/

/-- A mark is neither blank nor a part of a number or a word. -/
theorem not_word_of_ofMark? (h : ofMark? c = some t) :
    isBlank c = false ∧ c.isAlphanum = false := by
  unfold ofMark? at h
  split at h
  · decide
  · decide
  · decide
  · decide
  · obtain ⟨op, hop, _⟩ := Option.map_eq_some_iff.mp h
    rw [← Operator.sign_of_ofSign? hop]
    cases op <;> decide

theorem ofMark?_of_isAlphanum (h : c.isAlphanum = true) : ofMark? c = none := by
  cases hmark : ofMark? c with
  | none => rfl
  | some t =>
    rw [(not_word_of_ofMark? hmark).2] at h
    cases h

/-- A mark may have anything behind it. -/
theorem Scans.after_mark (hmark : ofMark? c = some t) (hcs : Scans cs ts) :
    Scans (c :: cs) (t :: ts) := by
  intro rest us hrest hscan
  have htoken : scanToken c (cs ++ rest) = .ok (t, cs ++ rest) := by
    simp only [scanToken, hmark]
  have hcons := scan_of_scanToken_ok (Bool.eq_false_iff.mp (not_word_of_ofMark? hmark).1) htoken
  rw [hcs rest us hrest hscan] at hcons
  exact hcons

/-! ## Numbers -/

theorem scanToken_of_isDigit (hc : c.isDigit = true) :
    scanToken c cs = .ok (scanNumber (c :: cs)) := by
  simp only [scanToken, ofMark?_of_isAlphanum (isAlphanum_of_isDigit hc), hc, if_true]

theorem isDigit_of_isAlphanum_eq_false (h : c.isAlphanum = false) : c.isDigit = false :=
  (Bool.or_eq_false_iff.mp h).2

/-- Characters of a kind go on to the first one that is not of the kind. -/
theorem takeWhile_append_of_head? {p : Char → Bool} (hcs : ∀ c ∈ cs, p c = true)
    (hrest : ∀ c ∈ rest.head?, p c = false) : (cs ++ rest).takeWhile p = cs := by
  rw [List.takeWhile_append_of_pos hcs]
  cases rest with
  | nil => simp
  | cons c rest => simp [hrest c rfl]

theorem dropWhile_append_of_head? {p : Char → Bool} (hcs : ∀ c ∈ cs, p c = true)
    (hrest : ∀ c ∈ rest.head?, p c = false) : (cs ++ rest).dropWhile p = rest := by
  rw [List.dropWhile_append_of_pos hcs]
  cases rest with
  | nil => rfl
  | cons c rest => simp [hrest c rfl]

theorem Apart.isDigit (h : Apart rest) : ∀ c ∈ rest.head?, c.isDigit = false :=
  fun c hc => isDigit_of_isAlphanum_eq_false (h c hc).1

theorem Apart.isAlphanum (h : Apart rest) : ∀ c ∈ rest.head?, c.isAlphanum = false :=
  fun c hc => (h c hc).1

theorem scanNumber_digits (hds : ∀ d ∈ ds, d.isDigit = true) (hrest : Apart rest) :
    scanNumber (ds ++ rest) = (.number (numberValue ds []), rest) := by
  simp only [scanNumber, takeWhile_append_of_head? hds hrest.isDigit,
    dropWhile_append_of_head? hds hrest.isDigit]
  split
  · exact absurd rfl (hrest '.' rfl).2
  · rfl

theorem scanNumber_point {fs : List Char} (hds : ∀ d ∈ ds, d.isDigit = true)
    (hfs : ∀ d ∈ fs, d.isDigit = true) (hne : fs ≠ []) (hrest : Apart rest) :
    scanNumber (ds ++ '.' :: fs ++ rest) = (.number (numberValue ds fs), rest) := by
  have hpoint : ∀ c ∈ ('.' :: (fs ++ rest)).head?, c.isDigit = false := by simp
  simp only [List.append_assoc, List.cons_append, scanNumber, takeWhile_append_of_head? hds hpoint,
    dropWhile_append_of_head? hds hpoint, takeWhile_append_of_head? hfs hrest.isDigit,
    dropWhile_append_of_head? hfs hrest.isDigit, List.isEmpty_iff, hne, if_false]

/-- Digits are scanned to their number. -/
theorem scans_number {d : Char} (hds : ∀ c ∈ d :: ds, c.isDigit = true) :
    Scans (d :: ds) [.number (numberValue (d :: ds) [])] := by
  have hd : d.isDigit = true := hds d List.mem_cons_self
  refine scans_of_scanToken (isBlank_of_isAlphanum (isAlphanum_of_isDigit hd)) ?_
  intro rest hrest
  rw [scanToken_of_isDigit hd, ← List.cons_append, scanNumber_digits hds hrest]

/-- Digits with a point among them are scanned to their number. -/
theorem scans_decimal {d : Char} {fs : List Char} (hds : ∀ c ∈ d :: ds, c.isDigit = true)
    (hfs : ∀ c ∈ fs, c.isDigit = true) (hne : fs ≠ []) :
    Scans (d :: (ds ++ '.' :: fs)) [.number (numberValue (d :: ds) fs)] := by
  have hd : d.isDigit = true := hds d List.mem_cons_self
  refine scans_of_scanToken (isBlank_of_isAlphanum (isAlphanum_of_isDigit hd)) ?_
  intro rest hrest
  rw [scanToken_of_isDigit hd, ← List.cons_append, ← List.cons_append,
    scanNumber_point hds hfs hne hrest]

/-! ## Words -/

theorem scanToken_of_isAlpha (hc : c.isAlpha = true) : scanToken c cs = scanWord (c :: cs) := by
  simp only [scanToken, ofMark?_of_isAlphanum (isAlphanum_of_isAlpha hc), hc, if_true,
    isDigit_eq_false_of_isAlpha hc, Bool.false_eq_true, if_false]

/-- A piece that starts with a letter is scanned as a word. -/
theorem scans_of_scanWord (hhead : ∃ c ∈ cs.head?, c.isAlpha = true)
    (h : ∀ rest, Apart rest → scanWord (cs ++ rest) = .ok (t, rest)) : Scans cs [t] := by
  obtain ⟨c, hc, halpha⟩ := hhead
  obtain ⟨ds, rfl⟩ := List.head?_eq_some_iff.mp hc
  refine scans_of_scanToken (isBlank_of_isAlphanum (isAlphanum_of_isAlpha halpha)) ?_
  intro rest hrest
  rw [scanToken_of_isAlpha halpha]
  exact h rest hrest

/-- The spelling of a cell is scanned to the cell. -/
theorem scans_cell {a : Address} (ha : a.Nameable) (h : a.text? = some (cs.map Char.toUpper)) :
    Scans cs [.cell a] := by
  have hword : IsWord cs := (Address.isWord_of_text? ha h).of_map_toUpper rfl
  refine scans_of_scanWord hword.1 ?_
  intro rest hrest
  simp only [scanWord, takeWhile_append_of_head? hword.2 hrest.isAlphanum,
    dropWhile_append_of_head? hword.2 hrest.isAlphanum, Address.ofChars?_of_text? ha h]

/-! ## Calls -/

theorem isWord_name (f : Aggregate) : IsWord f.name.toList := by
  have hall : f.name.toList.all Char.isAlphanum = true := by cases f <;> decide
  refine ⟨?_, List.all_eq_true.mp hall⟩
  cases f <;> exact ⟨_, rfl, rfl⟩

/-- No function has a name that is read as an address. -/
theorem ofChars?_name (f : Aggregate) : Address.ofChars? f.name.toList = none := by
  cases f <;> decide

/-- An argument is made of two words that are read as addresses, with a colon between them and in
parentheses, and anything may follow it. -/
theorem scanArgument?_eq_some_iff {r : Range} : scanArgument? cs = some (r, rest) ↔
    ∃ us vs, cs = '(' :: (us ++ ':' :: (vs ++ ')' :: rest)) ∧
      (∀ c ∈ us, c.isAlphanum = true) ∧ (∀ c ∈ vs, c.isAlphanum = true) ∧
      Address.ofChars? us = some r.first ∧ Address.ofChars? vs = some r.last := by
  constructor
  · intro h
    unfold scanArgument? at h
    split at h
    · next cs =>
      split at h
      · next ds hds =>
        split at h
        · next after hafter =>
          split at h
          · next first last hfirst hlast =>
            cases h
            refine ⟨cs.takeWhile Char.isAlphanum, ds.takeWhile Char.isAlphanum, ?_,
              fun _ => List.mem_takeWhile_imp, fun _ => List.mem_takeWhile_imp, hfirst, hlast⟩
            rw [← hafter, List.takeWhile_append_dropWhile, ← hds, List.takeWhile_append_dropWhile]
          · cases h
        · cases h
      · cases h
    · cases h
  · rintro ⟨us, vs, rfl, hus, hvs, hfirst, hlast⟩
    have hcolon : ∀ c ∈ (':' :: (vs ++ ')' :: rest)).head?, c.isAlphanum = false := by simp
    have hclosing : ∀ c ∈ (')' :: rest).head?, c.isAlphanum = false := by simp
    simp only [scanArgument?, takeWhile_append_of_head? hus hcolon,
      dropWhile_append_of_head? hus hcolon, takeWhile_append_of_head? hvs hclosing,
      dropWhile_append_of_head? hvs hclosing, hfirst, hlast]

/-- The spellings of two cells with a colon between them, in parentheses, are an argument. -/
theorem scanArgument?_of_map_toUpper {first last : Address} (hfirst : first.Nameable)
    (hlast : last.Nameable) (hcs : first.text? = some (cs.map Char.toUpper))
    (hds : last.text? = some (ds.map Char.toUpper)) (rest : List Char) :
    scanArgument? ('(' :: (cs ++ ':' :: (ds ++ ')' :: rest))) = some (⟨first, last⟩, rest) := by
  have hcsword : IsWord cs := (Address.isWord_of_text? hfirst hcs).of_map_toUpper rfl
  have hdsword : IsWord ds := (Address.isWord_of_text? hlast hds).of_map_toUpper rfl
  exact scanArgument?_eq_some_iff.mpr ⟨cs, ds, rfl, hcsword.2, hdsword.2,
    Address.ofChars?_of_map_toUpper hfirst hcs, Address.ofChars?_of_map_toUpper hlast hds⟩

section Name

variable {f : Aggregate} {name : List Char} (hname : name.map Char.toUpper = f.name.toList)

include hname

/-- The name of a function with an argument right behind it is scanned to a call of the function. -/
theorem scanWord_name_of_some {r : Range} (h : scanArgument? ('(' :: cs) = some (r, rest)) :
    scanWord (name ++ '(' :: cs) = .ok (.call f r, rest) := by
  have hword : IsWord name := (isWord_name f).of_map_toUpper hname
  have hopening : ∀ c ∈ ('(' :: cs).head?, c.isAlphanum = false := by simp
  simp only [scanWord, takeWhile_append_of_head? hword.2 hopening,
    dropWhile_append_of_head? hword.2 hopening, hname, ofChars?_name, Aggregate.ofName?_name, h]

theorem scanWord_name_of_none (h : scanArgument? ('(' :: cs) = none) :
    scanWord (name ++ '(' :: cs) = .error (.malformedCall f) := by
  have hword : IsWord name := (isWord_name f).of_map_toUpper hname
  have hopening : ∀ c ∈ ('(' :: cs).head?, c.isAlphanum = false := by simp
  simp only [scanWord, takeWhile_append_of_head? hword.2 hopening,
    dropWhile_append_of_head? hword.2 hopening, hname, ofChars?_name, Aggregate.ofName?_name, h]

end Name

/-- The spelling of a function's name with the spelling of an argument right behind it is scanned to
the call. -/
theorem scans_call {f : Aggregate} {first last : Address} {name : List Char}
    (hname : name.map Char.toUpper = f.name.toList) (hfirst : first.Nameable)
    (hlast : last.Nameable) (hcs : first.text? = some (cs.map Char.toUpper))
    (hds : last.text? = some (ds.map Char.toUpper)) :
    Scans (name ++ '(' :: (cs ++ ':' :: (ds ++ [')']))) [.call f ⟨first, last⟩] := by
  have hword : IsWord name := (isWord_name f).of_map_toUpper hname
  refine scans_of_scanWord ?_ ?_
  · obtain ⟨c, hc, halpha⟩ := hword.1
    exact ⟨c, List.mem_head?_append_of_mem_head? hc, halpha⟩
  · intro rest _
    have hargument := scanArgument?_of_map_toUpper hfirst hlast hcs hds rest
    simpa only [List.append_assoc, List.cons_append, List.nil_append] using
      scanWord_name_of_some hname hargument

end LessonGrid.Token
