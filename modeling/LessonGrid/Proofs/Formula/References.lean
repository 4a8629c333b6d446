import LessonGrid.Proofs.Cell.Reading
import LessonGrid.Proofs.Formula.Language
import LessonGrid.Proofs.Formula.LetterCase

/-!
# References in formulas

References are read in two ways: by themselves, from a text with blanks around the addresses as may be,
and within a formula, by the scan. Where no blanks are about the two agree. The scan stops the argument of
a call at the first parenthesis, while a range goes on to its end; so what stands behind the first
parenthesis has to be nothing, or the formula would go on behind the call.

Main statement: `formulas_read_references`.
-/

set_option autoImplicit false

namespace LessonGrid

open Token

/-! ## Calls -/

/-- Tokens with the tree of a call are the call, or are in parentheses. -/
theorem Derives.eq_call {limit under : Nat} {phrase : Phrase} {ts : List Token} {t : Tree}
    {f : Aggregate} {r : Range} (h : Derives limit phrase under ts t) (ht : t = .aggregate f r) :
    ts = [.call f r] ∨ ts.head? = some .opening := by
  induction h with
  | number | cell | negation | times | plus => cases ht
  | call =>
    cases ht
    exact .inl rfl
  | parentheses => exact .inr rfl
  | operand _ ih => exact ih ht
  | product _ ih => exact ih ht

/-- A text without tokens and without blanks is empty. -/
theorem Token.eq_nil_of_scan_eq_nil {cs : List Char} (h : scan cs = .ok [])
    (hcs : ∀ c ∈ cs, isBlank c = false) : cs = [] := by
  cases cs with
  | nil => rfl
  | cons c cs =>
    have hblank : ¬ isBlank c = true := Bool.eq_false_iff.mp (hcs c List.mem_cons_self)
    cases htoken : scanToken c cs with
    | error fault =>
      rw [scan_of_scanToken_error hblank htoken] at h
      cases h
    | ok tokenAndRest =>
      rw [scan_of_scanToken_ok hblank htoken] at h
      cases hrest : scan tokenAndRest.2 <;> rw [hrest] at h <;> cases h

/-- The name of a function with a parenthesis behind it has tokens only if an argument starts there, and
then its first token is the call. -/
theorem Token.scan_name_eq_ok_iff {f : Aggregate} {name : List Char}
    (hname : name.map Char.toUpper = f.name.toList) {cs : List Char} {ts : List Token} :
    scan (name ++ '(' :: cs) = .ok ts ↔ ∃ r rest us, scanArgument? ('(' :: cs) = some (r, rest) ∧
      scan rest = .ok us ∧ ts = .call f r :: us := by
  obtain ⟨c, hc, halpha⟩ := ((isWord_name f).of_map_toUpper hname).1
  obtain ⟨letters, rfl⟩ := List.head?_eq_some_iff.mp hc
  have hblank : ¬ isBlank c = true :=
    Bool.eq_false_iff.mp (isBlank_of_isAlphanum (isAlphanum_of_isAlpha halpha))
  rw [List.cons_append]
  cases hargument : scanArgument? ('(' :: cs) with
  | none =>
    have htoken : scanToken c (letters ++ '(' :: cs) = .error (.malformedCall f) :=
      (scanToken_of_isAlpha halpha).trans (scanWord_name_of_none hname hargument)
    simp [scan_of_scanToken_error hblank htoken]
  | some rangeAndRest =>
    obtain ⟨range, rest⟩ := rangeAndRest
    have htoken : scanToken c (letters ++ '(' :: cs) = .ok (.call f range, rest) :=
      (scanToken_of_isAlpha halpha).trans (scanWord_name_of_some hname hargument)
    rw [scan_of_scanToken_ok hblank htoken]
    constructor
    · intro h
      cases hrest : scan rest with
      | error fault =>
        rw [hrest] at h
        cases h
      | ok us =>
        rw [hrest] at h
        cases h
        exact ⟨range, rest, us, rfl, hrest, rfl⟩
    · rintro ⟨_, _, us, ⟨⟩, hus, rfl⟩
      rw [hus]
      rfl

/-- A call is read with the range that its argument is read as. -/
theorem ofBody_call_iff {f : Aggregate} {name t : List Char} {r : Range}
    (hname : name.map Char.toUpper = f.name.toList) (ht : ∀ c ∈ t, isBlank c = false) :
    Tree.ofBody (name ++ '(' :: (t ++ [')'])) = .ok (.aggregate f r) ↔ Range.ofChars? t = some r := by
  rw [ofBody_eq_ok_iff, Range.ofChars?_eq_some_iff]
  simp only [scan_name_eq_ok_iff hname]
  constructor
  · rintro ⟨_, ⟨r', rest, us, hargument, hrest, rfl⟩, hderives⟩
    obtain hcall | hopening := hderives.eq_call rfl
    · cases hcall
      obtain ⟨us, vs, htext, -, -, hfirst, hlast⟩ := scanArgument?_eq_some_iff.mp hargument
      have hsame : t ++ [')'] = us ++ ':' :: (vs ++ ')' :: rest) := (List.cons.inj htext).2
      have hrest : rest = [] := eq_nil_of_scan_eq_nil hrest fun c hc => by
        have hmem : c ∈ t ++ [')'] := by
          rw [hsame]
          simp [hc]
        rcases List.mem_append.mp hmem with hmem | hmem
        · exact ht c hmem
        · rw [List.mem_singleton.mp hmem]
          decide
      have hboth : t ++ [')'] = (us ++ ':' :: vs) ++ [')'] := by
        rw [hsame, hrest]
        simp
      exact ⟨us, vs, List.append_cancel_right hboth, hfirst, hlast⟩
    · cases hopening
  · rintro ⟨us, vs, rfl, hfirst, hlast⟩
    obtain ⟨hus, hvs⟩ := List.forall_mem_append.mp ht
    have husword : IsWord us := Address.isWord_of_ofChars? hfirst hus
    have hvsword : IsWord vs := Address.isWord_of_ofChars? hlast (List.forall_mem_cons.mp hvs).2
    have hargument : scanArgument? ('(' :: (us ++ ':' :: vs ++ [')'])) = some (r, []) :=
      scanArgument?_eq_some_iff.mpr
        ⟨us, vs, by simp, husword.2, hvsword.2, hfirst, hlast⟩
    exact ⟨_, ⟨r, [], [], hargument, scan_nil, rfl⟩,
      .product (.operand (.call f r (Nat.zero_le _)))⟩

/-! ## Words -/

section Word

variable {cs : List Char} {a : Address}

theorem ofBody_of_ofChars? (h : IsWord cs) (ha : Address.ofChars? cs = some a) :
    Tree.ofBody cs = .ok (.cell a) := by
  obtain ⟨hnameable, htext⟩ := Address.ofChars?_eq_some_iff.mp ha
  rw [trim_eq_self fun c hc => isBlank_of_isAlphanum (h.2 c hc)] at htext
  have hscan : scan cs = .ok [.cell a] := by
    simpa using scans_cell hnameable htext [] [] apart_nil scan_nil
  exact ofBody_eq_ok_iff.mpr
    ⟨_, hscan, .product (.operand (.cell a (Nat.zero_le _)))⟩

/-- A word that is no address starts no token: it is no name either, or it is a name with no argument. -/
theorem exists_noToken_of_word (h : IsWord cs) (hnone : Address.ofChars? cs = none) :
    ∃ fault : Fault, fault.NoToken cs := by
  have htake : cs.takeWhile Char.isAlphanum = cs := List.takeWhile_eq_self_iff.mpr h.2
  have hdrop : cs.dropWhile Char.isAlphanum = [] := List.dropWhile_eq_nil_iff.mpr h.2
  have haddress : Address.ofChars? ((cs.takeWhile Char.isAlphanum).map Char.toUpper) = none := by
    rw [htake, Address.ofChars?_map_toUpper, hnone]
  cases hname : Aggregate.ofName? ((cs.takeWhile Char.isAlphanum).map Char.toUpper) with
  | none => exact ⟨.unknownName _, h.1, rfl, haddress, hname⟩
  | some f =>
    refine ⟨.malformedCall f, h.1, haddress, hname, ?_⟩
    rw [hdrop]
    rintro ⟨us, vs, rest, hempty, _⟩
    cases hempty

/-- A word is a formula exactly when it is read as an address, and otherwise it is outside the
language. -/
theorem ofBody_word (h : IsWord cs) :
    (∀ a, Tree.ofBody cs = .ok (.cell a) ↔ Address.ofChars? cs = some a) ∧
    (Address.ofChars? cs = none →
      ∃ fault, Tree.ofBody cs = .error fault ∧ fault.kind = .language) := by
  have hnone : Address.ofChars? cs = none →
      ∃ fault, Tree.ofBody cs = .error fault ∧ fault.kind = .language := fun hread => by
    obtain ⟨fault, hfault⟩ := exists_noToken_of_word h hread
    have hscan : scan cs = .error fault := scan_eq_error_iff.mpr ⟨[], cs, .done cs, hfault⟩
    exact ⟨fault, ofBody_of_scan_error hscan, kind_of_scan_error hscan⟩
  refine ⟨fun a => ⟨fun hbody => ?_, ofBody_of_ofChars? h⟩, hnone⟩
  cases hread : Address.ofChars? cs with
  | none =>
    obtain ⟨fault, herror, _⟩ := hnone hread
    rw [hbody] at herror
    cases herror
  | some b =>
    rw [ofBody_of_ofChars? h hread] at hbody
    cases hbody
    rfl

end Word

/-- Formulas are read with the references that their parts are read as by themselves. A function with a
text in parentheses behind its name, no blanks in it, is the call of the function with a range exactly
when the text is read as the range; a word is a cell exactly when it is read as the cell, and a word that
is read as none is outside the language. -/
theorem formulas_read_references :
    (∀ (f : Aggregate) (name t : List Char) (r : Range), name.map Char.toUpper = f.name.toList →
      (∀ c ∈ t, isBlank c = false) →
      (Tree.ofBody (name ++ '(' :: (t ++ [')'])) = .ok (.aggregate f r) ↔
        Range.ofChars? t = some r)) ∧
    ∀ cs : List Char, IsWord cs →
      (∀ a, Tree.ofBody cs = .ok (.cell a) ↔ Address.ofChars? cs = some a) ∧
      (Address.ofChars? cs = none →
        ∃ fault, Tree.ofBody cs = .error fault ∧ fault.kind = .language) :=
  ⟨fun _ _ _ _ => ofBody_call_iff, fun _ => ofBody_word⟩

theorem formulas_read_references_in_small_letters :
    (∀ c ∈ "a1:e5".toList, isBlank c = false) ∧ IsWord "b2".toList ∧
    Tree.ofBody "sum(a1:e5)".toList = .ok (.aggregate .sum ⟨⟨0, 0⟩, ⟨4, 4⟩⟩) ∧
    Tree.ofBody "b2".toList = .ok (.cell ⟨1, 1⟩) := by
  have hargument : ∀ c ∈ "a1:e5".toList, isBlank c = false := by
    simp [isBlank]
  have hword : IsWord "b2".toList := ⟨⟨'b', rfl, rfl⟩, by simp⟩
  have hcall := formulas_read_references.1 .sum "sum".toList "a1:e5".toList ⟨⟨0, 0⟩, ⟨4, 4⟩⟩
    (by decide) hargument
  have hcell := (formulas_read_references.2 "b2".toList hword).1 ⟨1, 1⟩
  exact ⟨hargument, hword, hcall.mpr (by decide), hcell.mpr (by decide)⟩

end LessonGrid
