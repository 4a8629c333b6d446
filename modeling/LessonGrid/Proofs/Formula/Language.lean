import LessonGrid.Proofs.Formula.Colon
import LessonGrid.Proofs.Formula.Named
import LessonGrid.Proofs.Formula.Refusal
import LessonGrid.Proofs.Formula.Words

/-!
# Texts outside the formula language

A formula is refused either for its language or for its shape. Its language is at fault where the scan
comes to characters that start no token (`Fault.NoToken`), and where a colon is found by itself. But only
the first colon is ever looked at, and it is found only when nothing in front of it is refused for its
shape: in `=A1 B1:C1` the cells side by side come first.

Main statement: `ofBody_fault_kind_iff`.
-/

set_option autoImplicit false

namespace LessonGrid

/-! ## Characters that start no token -/

namespace Token

/-- The text starts with the argument of a call: the spellings of two cells with a colon between them,
in parentheses and with nothing else. -/
def StartsWithArgument (cs : List Char) : Prop :=
  ∃ us vs rest, cs = '(' :: (us ++ ':' :: (vs ++ ')' :: rest)) ∧
    (∀ c ∈ us, c.isAlphanum = true) ∧ (∀ c ∈ vs, c.isAlphanum = true) ∧
    (∃ first, Address.ofChars? us = some first) ∧ ∃ last, Address.ofChars? vs = some last

theorem scanArgument?_eq_none_iff {cs : List Char} :
    scanArgument? cs = none ↔ ¬ StartsWithArgument cs := by
  rw [Option.eq_none_iff_forall_ne_some, Prod.forall]
  simp only [ne_eq, scanArgument?_eq_some_iff]
  constructor
  · rintro hnot ⟨us, vs, rest, hcs, hus, hvs, ⟨first, hfirst⟩, ⟨last, hlast⟩⟩
    exact hnot ⟨first, last⟩ rest ⟨us, vs, hcs, hus, hvs, hfirst, hlast⟩
  · rintro hnot r rest ⟨us, vs, hcs, hus, hvs, hfirst, hlast⟩
    exact hnot ⟨us, vs, rest, hcs, hus, hvs, ⟨_, hfirst⟩, ⟨_, hlast⟩⟩

end Token

open Token

/-- Why no token starts the text: its first character belongs to no token, or its first word is neither
a cell nor a function, or is a function that has no argument right behind it. -/
def Fault.NoToken : Fault → List Char → Prop
  | .unexpectedCharacter c, cs => cs.head? = some c ∧ isBlank c = false ∧ c.isAlphanum = false ∧
      ofMark? c = none
  | .unknownName name, cs => (∃ c ∈ cs.head?, c.isAlpha = true) ∧
      name = (cs.takeWhile Char.isAlphanum).map Char.toUpper ∧
      Address.ofChars? name = none ∧ Aggregate.ofName? name = none
  | .malformedCall f, cs => (∃ c ∈ cs.head?, c.isAlpha = true) ∧
      Address.ofChars? ((cs.takeWhile Char.isAlphanum).map Char.toUpper) = none ∧
      Aggregate.ofName? ((cs.takeWhile Char.isAlphanum).map Char.toUpper) = some f ∧
      ¬ StartsWithArgument (cs.dropWhile Char.isAlphanum)
  | _, _ => False

namespace Token

theorem noToken_of_scanWord_error {cs : List Char} {fault : Fault}
    (halpha : ∃ c ∈ cs.head?, c.isAlpha = true) (h : scanWord cs = .error fault) :
    fault.NoToken cs := by
  unfold scanWord at h
  simp only at h
  split at h
  · cases h
  · next haddress =>
    split at h
    · next hname =>
      cases h
      exact ⟨halpha, rfl, haddress, hname⟩
    · next f hname =>
      split at h
      · next hargument =>
        cases h
        exact ⟨halpha, haddress, hname, scanArgument?_eq_none_iff.mp hargument⟩
      · cases h

theorem noToken_of_scanToken_error {c : Char} {cs : List Char} {fault : Fault}
    (hblank : ¬ isBlank c = true) (h : scanToken c cs = .error fault) : fault.NoToken (c :: cs) := by
  unfold scanToken at h
  split at h
  · cases h
  · next hmark =>
    split at h
    · cases h
    · next hdigit =>
      split at h
      · next halpha => exact noToken_of_scanWord_error ⟨c, rfl, halpha⟩ h
      · next halpha =>
        cases h
        exact ⟨rfl, by simpa using hblank, by simp [Char.isAlphanum, hdigit, halpha], hmark⟩

theorem isBlank_eq_false_of_noToken {c : Char} {cs : List Char} {fault : Fault}
    (h : fault.NoToken (c :: cs)) : isBlank c = false := by
  cases fault with
  | unexpectedCharacter d =>
    obtain ⟨hhead, hblank, _⟩ := h
    cases hhead
    exact hblank
  | unknownName name =>
    obtain ⟨⟨d, hhead, halpha⟩, _⟩ := h
    cases hhead
    exact isBlank_of_isAlphanum (isAlphanum_of_isAlpha halpha)
  | malformedCall f =>
    obtain ⟨⟨d, hhead, halpha⟩, _⟩ := h
    cases hhead
    exact isBlank_of_isAlphanum (isAlphanum_of_isAlpha halpha)
  | _ => exact h.elim

theorem scanToken_of_noToken {c : Char} {cs : List Char} {fault : Fault}
    (h : fault.NoToken (c :: cs)) : scanToken c cs = .error fault := by
  cases fault with
  | unexpectedCharacter d =>
    obtain ⟨hhead, _, halphanum, hmark⟩ := h
    cases hhead
    obtain ⟨halpha, hdigit⟩ := Bool.or_eq_false_iff.mp halphanum
    simp only [scanToken, hmark, hdigit, halpha, Bool.false_eq_true, if_false]
  | unknownName name =>
    obtain ⟨⟨d, hhead, halpha⟩, rfl, haddress, hname⟩ := h
    cases hhead
    rw [scanToken_of_isAlpha halpha]
    simp only [scanWord, haddress, hname]
  | malformedCall f =>
    obtain ⟨⟨d, hhead, halpha⟩, haddress, hname, hargument⟩ := h
    cases hhead
    rw [scanToken_of_isAlpha halpha]
    simp only [scanWord, haddress, hname, scanArgument?_eq_none_iff.mpr hargument]
  | _ => exact h.elim

/-! ## Texts that are not cut into tokens -/

/-- The tokens are cut off the front of the first text, blanks are passed by, and the second text is
what is left. -/
inductive Cuts : List Char → List Token → List Char → Prop
  | done (cs : List Char) : Cuts cs [] cs
  | blank {c : Char} {cs rest : List Char} {ts : List Token} :
      isBlank c = true → Cuts cs ts rest → Cuts (c :: cs) ts rest
  | token {c : Char} {cs mid rest : List Char} {t : Token} {ts : List Token} :
      isBlank c = false → scanToken c cs = .ok (t, mid) → Cuts mid ts rest →
      Cuts (c :: cs) (t :: ts) rest

/-- A text has no tokens exactly when, some tokens cut off, no token starts what is left. -/
theorem scan_eq_error_iff {cs : List Char} {fault : Fault} :
    scan cs = .error fault ↔ ∃ ts rest, Cuts cs ts rest ∧ fault.NoToken rest := by
  constructor
  · intro h
    induction cs using scan.induct generalizing fault with
    | case1 =>
      rw [scan_nil] at h
      cases h
    | case2 c cs hblank ih =>
      rw [scan_of_blank cs hblank] at h
      obtain ⟨ts, rest, hcuts, hfault⟩ := ih h
      exact ⟨ts, rest, .blank hblank hcuts, hfault⟩
    | case3 c cs hblank fault' htoken =>
      rw [scan_of_scanToken_error hblank htoken] at h
      cases h
      exact ⟨[], c :: cs, .done _, noToken_of_scanToken_error hblank htoken⟩
    | case4 c cs hblank t mid htoken hle fault' hmid ih =>
      rw [scan_of_scanToken_ok hblank htoken, hmid] at h
      cases h
      obtain ⟨ts, rest, hcuts, hfault⟩ := ih hmid
      exact ⟨t :: ts, rest, .token (by simpa using hblank) htoken hcuts, hfault⟩
    | case5 c cs hblank t mid htoken hle ts hmid ih =>
      rw [scan_of_scanToken_ok hblank htoken, hmid] at h
      cases h
  · rintro ⟨ts, rest, hcuts, hfault⟩
    induction hcuts with
    | done cs =>
      cases cs with
      | nil => cases fault <;> simp [Fault.NoToken] at hfault
      | cons c cs =>
        have hblank := isBlank_eq_false_of_noToken hfault
        exact scan_of_scanToken_error (by simp [hblank]) (scanToken_of_noToken hfault)
    | blank hblank _ ih =>
      rw [scan_of_blank _ hblank]
      exact ih hfault
    | token hblank htoken _ ih =>
      rw [scan_of_scanToken_ok (by simp [hblank]) htoken, ih hfault]
      rfl

end Token

/-! ## The kinds of faults -/

theorem ofBody_of_scan_error {body : List Char} {fault : Fault} (h : scan body = .error fault) :
    Tree.ofBody body = .error fault := by
  simp only [Tree.ofBody, h]

theorem ofBody_of_scan_ok {body : List Char} {ts : List Token} (h : scan body = .ok ts) :
    Tree.ofBody body = Tree.ofTokens ts := by
  simp only [Tree.ofBody, h]

/-- Of the faults of shape only a misplaced colon is a fault of the language. -/
theorem Fault.OfShape.kind_eq_language_iff {ts : List Token} {fault : Fault}
    (h : fault.OfShape ts) : fault.kind = .language ↔ ∃ place, fault = .misplaced place .colon := by
  cases fault with
  | misplaced place t => cases t <;> simp [kind]
  | emptyFormula => simp [kind]
  | unexpectedEnd => simp [kind]
  | unclosed => simp [kind]
  | nestedTooDeeply => simp [kind]
  | _ => exact h.elim

theorem ofTokens_language_fault_iff {ts : List Token} :
    (∃ fault, Tree.ofTokens ts = .error fault ∧ fault.kind = .language) ↔
      .colon ∈ ts ∧ Begins nestingLimit .sum 0 (ts.takeWhile (· ≠ .colon)) := by
  rw [← ofTokens_blames_colon_iff]
  constructor
  · rintro ⟨fault, h, hkind⟩
    obtain ⟨place, rfl⟩ := (shape_of_ofTokens_error h).kind_eq_language_iff.mp hkind
    exact ⟨place, h⟩
  · rintro ⟨place, h⟩
    exact ⟨_, h, rfl⟩

theorem ofTokens_evaluation_fault_iff {ts : List Token} :
    (∃ fault, Tree.ofTokens ts = .error fault ∧ fault.kind = .evaluation) ↔
      (∀ t, ¬ Derives nestingLimit .sum 0 ts t) ∧
        ¬ (.colon ∈ ts ∧ Begins nestingLimit .sum 0 (ts.takeWhile (· ≠ .colon))) := by
  rw [← ofTokens_language_fault_iff]
  cases h : Tree.ofTokens ts with
  | ok t =>
    have hderives := ofTokens_eq_ok_iff.mp h
    simp only [reduceCtorEq, false_and, exists_const, not_false_iff, and_true, false_iff]
    exact fun hnone => hnone t hderives
  | error fault =>
    have hnone : ∀ t, ¬ Derives nestingLimit .sum 0 ts t := by
      intro t hderives
      rw [ofTokens_eq_ok_iff.mpr hderives] at h
      cases h
    simp only [Except.error.injEq, exists_eq_left', hnone, not_false_iff, implies_true, true_and]
    rcases (shape_of_ofTokens_error h).kind_cases with hkind | hkind <;> simp [hkind]

/-- A body is at fault for its language exactly when it has no tokens, or when one of its tokens is a
colon and those before the first colon are the front of a formula. Every other body that is not a formula
has a fault of evaluation; and any fault can be put in words, so that no body stops the program. A body has
no tokens exactly when, some tokens cut off, no token starts what is left. -/
theorem ofBody_fault_kind_iff (body : List Char) :
    ((∃ fault, Tree.ofBody body = .error fault ∧ fault.kind = .language) ↔
      (∃ fault, scan body = .error fault) ∨
        ∃ ts, scan body = .ok ts ∧ .colon ∈ ts ∧
          Begins nestingLimit .sum 0 (ts.takeWhile (· ≠ .colon))) ∧
    ((∃ fault, Tree.ofBody body = .error fault ∧ fault.kind = .evaluation) ↔
      ∃ ts, scan body = .ok ts ∧ (∀ t, ¬ Derives nestingLimit .sum 0 ts t) ∧
        ¬ (.colon ∈ ts ∧ Begins nestingLimit .sum 0 (ts.takeWhile (· ≠ .colon)))) ∧
    (∀ fault, Tree.ofBody body = .error fault →
      (fault.kind = .language ∨ fault.kind = .evaluation) ∧
        ∃ message, fault.message? = some message) ∧
    ∀ fault, scan body = .error fault ↔ ∃ ts rest, Cuts body ts rest ∧ fault.NoToken rest := by
  refine ⟨?_, ?_, fun fault h => ⟨kind_of_ofBody_error h, exists_message?_of_ofBody_error h⟩,
    fun fault => scan_eq_error_iff⟩
  · cases hscan : scan body with
    | error fault => simp [ofBody_of_scan_error hscan, kind_of_scan_error hscan]
    | ok ts =>
      rw [ofBody_of_scan_ok hscan, ofTokens_language_fault_iff]
      simp
  · cases hscan : scan body with
    | error fault => simp [ofBody_of_scan_error hscan, kind_of_scan_error hscan]
    | ok ts =>
      rw [ofBody_of_scan_ok hscan, ofTokens_evaluation_fault_iff]
      simp

/-- The body `A1 B1:C1` has tokens, and one of them is a colon, but its fault is not one of the
language: the first cell is a whole formula, and the second one is refused before the colon is looked
at. -/
theorem ofBody_passes_over_colon :
    (∃ ts, scan "A1 B1:C1".toList = .ok ts ∧ .colon ∈ ts) ∧
    Tree.ofBody "A1 B1:C1".toList = .error (.misplaced .afterExpression (.cell ⟨1, 0⟩)) ∧
    ¬ ∃ fault, Tree.ofBody "A1 B1:C1".toList = .error fault ∧ fault.kind = .language := by
  have hscan : scan "A1 B1:C1".toList =
      .ok [.cell ⟨0, 0⟩, .cell ⟨1, 0⟩, .colon, .cell ⟨2, 0⟩] := by cbv
  have hbody : Tree.ofBody "A1 B1:C1".toList =
      .error (.misplaced .afterExpression (.cell ⟨1, 0⟩)) := by cbv
  refine ⟨⟨_, hscan, by simp⟩, hbody, ?_⟩
  rintro ⟨fault, h, hkind⟩
  cases hbody.symm.trans h
  cases hkind

end LessonGrid
