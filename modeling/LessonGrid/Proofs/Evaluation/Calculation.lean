import Mathlib
import LessonGrid.Proofs.Evaluation.Reads
import LessonGrid.Proofs.Formula.Grammar
import LessonGrid.Proofs.Formula.Language

/-!
# Calculations

A calculation is read and evaluated like a formula, once each of its characters is known to belong to
one. What stands behind an equals sign comes to the same on every level and in every grid: its
characters make no word and no colon, so it has tokens, its language is never at fault, and its tree
refers to no cell.

Main statement: `calculate_agrees_with_evaluate`.
-/

set_option autoImplicit false

namespace LessonGrid

/-- The characters of a calculation. -/
theorem isArithmetic_iff {c : Char} : isArithmetic c = true ↔
    c.isDigit = true ∨ isBlank c = true ∨ c ∈ ['+', '-', '*', '/', '(', ')', '.'] := by
  have hmark : ((Token.ofMark? c).isSome && c != ':') = true ↔
      c ∈ ['+', '-', '*', '/', '(', ')', '.'] := by
    constructor
    · intro h
      obtain ⟨hsome, hcolon⟩ := Bool.and_eq_true_iff.mp h
      unfold Token.ofMark? at hsome
      split at hsome
      · decide
      · decide
      · cases hcolon
      · decide
      · obtain ⟨op, hop⟩ := Option.isSome_iff_exists.mp (Option.isSome_map.symm.trans hsome)
        rw [← Operator.sign_of_ofSign? hop]
        cases op <;> decide
    · intro h
      simp only [List.mem_cons, List.not_mem_nil, or_false] at h
      rcases h with rfl | rfl | rfl | rfl | rfl | rfl | rfl <;> rfl
  rw [isArithmetic, Bool.or_eq_true, Bool.or_eq_true, hmark, or_assoc]

/-! ## The tokens of a calculation -/

namespace Token

/-- The tokens that a calculation may have. -/
def IsArithmetic : Token → Prop
  | number _ => True
  | operator _ => True
  | opening => True
  | closing => True
  | point => True
  | _ => False

theorem IsArithmetic.reference?_eq_none {t : Token} (h : t.IsArithmetic) : t.reference? = none := by
  cases t with
  | cell a => exact h.elim
  | call f r => exact h.elim
  | _ => rfl

theorem scanNumber_isArithmetic (cs : List Char) : (scanNumber cs).1.IsArithmetic := by
  unfold scanNumber
  simp only
  split
  · split <;> trivial
  · trivial

theorem scanNumber_suffix (cs : List Char) : (scanNumber cs).2 <:+ cs := by
  have hrest : cs.dropWhile Char.isDigit <:+ cs := List.dropWhile_suffix _
  unfold scanNumber
  simp only
  split
  · next after hafter =>
    split
    · exact hrest
    · rw [hafter] at hrest
      have hsuffix : after <:+ cs := (List.suffix_cons '.' after).trans hrest
      exact (List.dropWhile_suffix _).trans hsuffix
  · exact hrest

theorem isArithmetic_of_ofMark? {c : Char} {t : Token} (hc : isArithmetic c = true)
    (h : ofMark? c = some t) : t.IsArithmetic := by
  unfold ofMark? at h
  split at h
  · cases h; trivial
  · cases h; trivial
  · cases hc
  · cases h; trivial
  · obtain ⟨op, _, rfl⟩ := Option.map_eq_some_iff.mp h
    trivial

/-- A character of a calculation that is not blank starts a token, a number if it is no mark. -/
theorem scanToken_of_isArithmetic {c : Char} (cs : List Char) (hc : isArithmetic c = true)
    (hblank : ¬ isBlank c = true) :
    ∃ t rest, scanToken c cs = .ok (t, rest) ∧ t.IsArithmetic ∧ rest <:+ c :: cs := by
  unfold scanToken
  cases hmark : ofMark? c with
  | some t => exact ⟨t, cs, rfl, isArithmetic_of_ofMark? hc hmark, List.suffix_cons c cs⟩
  | none =>
    have hdigit : c.isDigit = true := by
      simpa [isArithmetic, hblank, hmark] using hc
    simp only [hdigit, if_true]
    exact ⟨_, _, rfl, scanNumber_isArithmetic _, scanNumber_suffix _⟩

/-- A calculation has tokens, and they are its own. -/
theorem scan_of_isArithmetic {cs : List Char} (h : ∀ c ∈ cs, isArithmetic c = true) :
    ∃ ts, scan cs = .ok ts ∧ ∀ t ∈ ts, t.IsArithmetic := by
  induction cs using scan.induct with
  | case1 => exact ⟨[], scan_nil, by simp⟩
  | case2 c cs hblank ih =>
    obtain ⟨ts, hts, harithmetic⟩ := ih fun d hd => h d (List.mem_cons_of_mem c hd)
    exact ⟨ts, (scan_of_blank cs hblank).trans hts, harithmetic⟩
  | case3 c cs hblank fault htoken =>
    obtain ⟨t, rest, hok, _⟩ := scanToken_of_isArithmetic cs (h c List.mem_cons_self) hblank
    cases htoken.symm.trans hok
  | case4 c cs hblank t rest htoken hle fault hrest ih =>
    obtain ⟨t', rest', hok, _, hsuffix⟩ :=
      scanToken_of_isArithmetic cs (h c List.mem_cons_self) hblank
    cases htoken.symm.trans hok
    obtain ⟨ts, hts, _⟩ := ih fun d hd => h d (hsuffix.subset hd)
    cases hrest.symm.trans hts
  | case5 c cs hblank t rest htoken hle us hrest ih =>
    obtain ⟨t', rest', hok, htoken', hsuffix⟩ :=
      scanToken_of_isArithmetic cs (h c List.mem_cons_self) hblank
    cases htoken.symm.trans hok
    obtain ⟨ts, hts, harithmetic⟩ := ih fun d hd => h d (hsuffix.subset hd)
    refine ⟨t :: ts, ?_, List.forall_mem_cons.mpr ⟨htoken', harithmetic⟩⟩
    rw [scan_of_scanToken_ok hblank htoken, hts]
    rfl

end Token

/-! ## The tree of a calculation -/

theorem Tree.not_reads_of_references_eq_nil {t : Tree} (h : t.references = []) (a : Address) :
    ¬ t.Reads a := by
  simp [Reads, h]

/-- A calculation that has a tree refers to nothing. -/
theorem references_eq_nil_of_ofBody {text : List Char} {t : Tree}
    (h : ∀ c ∈ text, isArithmetic c = true) (ht : Tree.ofBody text = .ok t) :
    t.references = [] := by
  obtain ⟨ts, hscan, hts⟩ := Token.scan_of_isArithmetic h
  rw [ofBody_of_scan_ok hscan] at ht
  rw [references_of_derives (ofTokens_eq_ok_iff.mp ht), List.filterMap_eq_nil_iff]
  exact fun u hu => (hts u hu).reference?_eq_none

/-- A calculation that has no tree is refused for its shape, and never for a colon. -/
theorem kind_of_ofBody_error_of_isArithmetic {text : List Char} {fault : Fault}
    (h : ∀ c ∈ text, isArithmetic c = true) (hfault : Tree.ofBody text = .error fault) :
    fault.kind = .evaluation := by
  obtain ⟨ts, hscan, hts⟩ := Token.scan_of_isArithmetic h
  rw [ofBody_of_scan_ok hscan] at hfault
  have hshape : fault.OfShape ts := shape_of_ofTokens_error hfault
  rcases hshape.kind_cases with hkind | hkind
  · obtain ⟨place, rfl⟩ := hshape.kind_eq_language_iff.mp hkind
    exact (hts _ hshape).elim
  · exact hkind

/-! ## The result of a calculation -/

/-- A text with another character is refused for the first one of them. -/
theorem calculate_of_not_isArithmetic {text : List Char} {c : Char} (hc : c ∈ text)
    (h : isArithmetic c = false) :
    ∃ d ∈ text, isArithmetic d = false ∧ calculate text = .error (.unexpectedCharacter d) := by
  have hsome : (text.find? fun c => !isArithmetic c).isSome = true :=
    List.find?_isSome.mpr ⟨c, hc, by simp [h]⟩
  obtain ⟨d, hd⟩ := Option.isSome_iff_exists.mp hsome
  refine ⟨d, List.mem_of_find?_eq_some hd, by simpa using List.find?_some hd, ?_⟩
  simp only [calculate, hd]

section Arithmetic

variable {text : List Char} (h : ∀ c ∈ text, isArithmetic c = true)

include h

theorem calculate_of_ofBody_error {fault : Fault} (hfault : Tree.ofBody text = .error fault) :
    calculate text = .error fault := by
  have hnone : text.find? (fun c => !isArithmetic c) = none :=
    List.find?_eq_none.mpr fun c hc => by simp [h c hc]
  simp only [calculate, hnone, hfault]

/-- The value of a calculation does not depend on the way cells are read. -/
theorem calculate_of_ofBody_ok {t : Tree} (ht : Tree.ofBody text = .ok t)
    (read : Address → Except Fault Float) : calculate text = t.evaluate read := by
  have hnone : text.find? (fun c => !isArithmetic c) = none :=
    List.find?_eq_none.mpr fun c hc => by simp [h c hc]
  have hreads := Tree.not_reads_of_references_eq_nil (references_eq_nil_of_ofBody h ht)
  simp only [calculate, hnone, ht]
  exact Tree.evaluate_congr fun a ha => absurd ha (hreads a)

theorem kind_of_calculate_error {fault : Fault} (hfault : calculate text = .error fault) :
    fault.kind = .evaluation := by
  cases htree : Tree.ofBody text with
  | error fault' =>
    rw [calculate_of_ofBody_error h htree] at hfault
    cases hfault
    exact kind_of_ofBody_error_of_isArithmetic h htree
  | ok t =>
    rw [calculate_of_ofBody_ok h htree fun _ => .ok 0] at hfault
    rcases t.evaluate_error_cases hfault with ⟨a, _, hread⟩ | ⟨r, hr, _⟩ | hkind
    · cases hread
    · rw [references_eq_nil_of_ofBody h htree] at hr
      cases hr
    · exact hkind

/-- A formula is evaluated as the calculation behind its equals sign wherever a level is left. -/
theorem valueWithin_eq_calculate {raw : String} (hraw : formulaBody? raw = some text) (g : Grid)
    (levels : Nat) : g.valueWithin (levels + 1) raw = (calculate text).map .number := by
  cases htree : Tree.ofBody text with
  | error fault =>
    rw [Grid.valueWithin_succ_of_error hraw htree, calculate_of_ofBody_error h htree]
    rfl
  | ok t =>
    rw [Grid.valueWithin_succ_of_ok hraw htree]
    rw [calculate_of_ofBody_ok h htree (g.readWith (g.valueWithin levels))]

end Arithmetic

theorem formulaBody?_equals_append (s : String) : formulaBody? ("=" ++ s) = some s.toList := by
  have hlist : ("=" ++ s).toList = '=' :: s.toList := String.toList_append
  simp only [formulaBody?, hlist]

/-- A calculation is refused for its language exactly when it has a character that is no digit, no
blank and none of the seven signs, and every other fault of it is one of evaluation, never a circular
reference. Where it has no other characters it comes to the same, whether a number or a fault, as the
formula with an equals sign in front of it, in any grid and on any level on which formulas are
evaluated. -/
theorem calculate_agrees_with_evaluate (s : String) :
    ((∃ fault, calculate s.toList = .error fault ∧ fault.kind = .language) ↔
      ∃ c ∈ s.toList, ¬ (c.isDigit = true ∨ isBlank c = true ∨
        c ∈ ['+', '-', '*', '/', '(', ')', '.'])) ∧
    (∀ fault, calculate s.toList = .error fault →
      fault.kind = .language ∨ fault.kind = .evaluation) ∧
    ((∀ c ∈ s.toList, c.isDigit = true ∨ isBlank c = true ∨
        c ∈ ['+', '-', '*', '/', '(', ')', '.']) →
      ∀ (g : Grid) (level : Nat), level ≤ maxLevel →
        g.evaluate ("=" ++ s) level = (calculate s.toList).map .number) := by
  simp only [← isArithmetic_iff]
  by_cases h : ∀ c ∈ s.toList, isArithmetic c = true
  · refine ⟨?_, ?_, fun _ g level hlevel => ?_⟩
    · refine iff_of_false ?_ (by simpa using h)
      rintro ⟨fault, hfault, hkind⟩
      cases hkind.symm.trans (kind_of_calculate_error h hfault)
    · exact fun fault hfault => .inr (kind_of_calculate_error h hfault)
    · have hlevels : Grid.levelsFrom level = maxLevel - level + 1 := by
        unfold Grid.levelsFrom
        omega
      rw [Grid.evaluate, hlevels]
      exact valueWithin_eq_calculate h (formulaBody?_equals_append s) g _
  · obtain ⟨c, hc, hother⟩ : ∃ c ∈ s.toList, ¬ isArithmetic c = true := by simpa using h
    obtain ⟨d, _, _, hrefused⟩ :=
      calculate_of_not_isArithmetic hc (Bool.eq_false_iff.mpr hother)
    refine ⟨iff_of_true ⟨_, hrefused, rfl⟩ ⟨c, hc, hother⟩, ?_, fun hall => absurd hall h⟩
    intro fault hfault
    cases hrefused.symm.trans hfault
    exact .inl rfl

/-- On the last level that is evaluated, beside a cell that refers to itself, a division by zero behind
an equals sign is the fault of the calculation. -/
theorem evaluate_eq_calculate_on_last_level :
    (⟨[⟨"=A1", "", "", "", ""⟩]⟩ : Grid).evaluate ("=" ++ "7 / (2 - 2)") maxLevel =
      .error .divisionByZero := by
  have hresult : calculate "7 / (2 - 2)".toList = .error .divisionByZero := by decide +kernel
  have hcharacters : ∀ c ∈ "7 / (2 - 2)".toList, c.isDigit = true ∨ isBlank c = true ∨
      c ∈ ['+', '-', '*', '/', '(', ')', '.'] := by simp [isBlank]
  have hagree := (calculate_agrees_with_evaluate "7 / (2 - 2)").2.2 hcharacters
  rw [hagree ⟨[⟨"=A1", "", "", "", ""⟩]⟩ maxLevel (Nat.le_refl _), hresult]
  rfl

end LessonGrid
