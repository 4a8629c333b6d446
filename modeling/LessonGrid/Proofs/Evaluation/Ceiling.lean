import Mathlib
import LessonGrid.Proofs.Dependency.Loop
import LessonGrid.Proofs.Evaluation.Levels

/-!
# Circular references

Formulas are followed down a fixed number of levels. A circular reference is reported only where a
chain of formulas, each of which refers to the next one by itself, goes down past the last level; and
wherever there is such a chain the formula at its top has no value. Ranges take no part in it: the
fault of a cell in a range counts as zero.

Main statement: `evaluate_circular_and_chains`.
-/

set_option autoImplicit false

namespace LessonGrid

open Relation

namespace Grid

/-- The cells lead down from a text: the text is a formula that refers to the first of them by
itself, each of them is in the grid and holds a formula that refers to the next one by itself, and
what the last one holds starts with an equals sign. -/
def LeadsDown (g : Grid) : String → List Address → Prop
  | text, [] => IsFormula text
  | text, a :: cells => Names text a ∧ ∃ raw, g.raw? a = some raw ∧ g.LeadsDown raw cells

/-- A cell of the grid holds a formula that refers to another cell by itself. -/
def NamesCell (g : Grid) (a b : Address) : Prop :=
  ∃ raw, g.raw? a = some raw ∧ Names raw b

theorem LeadsDown.isFormula {g : Grid} {text : String} {cells : List Address}
    (h : g.LeadsDown text cells) : IsFormula text := by
  cases cells with
  | nil => exact h
  | cons a cells => exact h.1.isFormula

/-- A circular reference comes up from a cell that the formula refers to by itself: the formula can
be read, and neither its arithmetic nor its ranges make one. -/
theorem exists_names_of_circular {g : Grid} {levels : Nat} {text : String}
    (h : g.valueWithin (levels + 1) text = .error .circular) :
    ∃ a raw, Names text a ∧ g.raw? a = some raw ∧ g.valueWithin levels raw = .error .circular := by
  have hformula : IsFormula text := isFormula_of_valueWithin_error h
  obtain ⟨body, hbody⟩ := Option.isSome_iff_exists.mp hformula
  cases htree : Tree.ofBody body with
  | error fault =>
    rw [valueWithin_succ_of_error hbody htree] at h
    cases h
    rcases kind_of_ofBody_error htree with hkind | hkind <;> cases hkind
  | ok t =>
    rw [valueWithin_succ_of_ok hbody htree] at h
    have hevaluate : t.evaluate (g.readWith (g.valueWithin levels)) = .error .circular := by
      cases heval : t.evaluate (g.readWith (g.valueWithin levels)) with
      | error fault => rw [heval] at h; cases h; rfl
      | ok x => rw [heval] at h; cases h
    rcases Tree.evaluate_error_cases hevaluate with ⟨a, ha, hread⟩ | ⟨r, _, hrefusal⟩ | hkind
    · obtain ⟨raw, hraw, _, hvalue⟩ := readWith_eq_error_iff.mp hread
      exact ⟨a, raw, ⟨body, t, hbody, htree, ha⟩, hraw, hvalue⟩
    · rcases Range.refusal?_cases hrefusal with hfault | hfault <;> cases hfault
    · cases hkind

/-- A circular reference comes from a chain through all the levels that are left. -/
theorem leadsDown_of_circular {g : Grid} {levels : Nat} {text : String}
    (h : g.valueWithin levels text = .error .circular) :
    ∃ cells, cells.length = levels ∧ g.LeadsDown text cells := by
  induction levels generalizing text with
  | zero => exact ⟨[], rfl, isFormula_of_valueWithin_error h⟩
  | succ levels ih =>
    obtain ⟨a, raw, hname, hraw, hvalue⟩ := exists_names_of_circular h
    obtain ⟨cells, hlength, hcells⟩ := ih hvalue
    refine ⟨a :: cells, ?_, hname, raw, hraw, hcells⟩
    rw [List.length_cons, hlength]

/-- A text from which cells lead down through all the levels that are left has no value. -/
theorem valueWithin_error_of_leadsDown {g : Grid} {text : String} {cells : List Address}
    (h : g.LeadsDown text cells) : ∃ fault, g.valueWithin cells.length text = .error fault := by
  induction cells generalizing text with
  | nil => exact ⟨.circular, valueWithin_zero h⟩
  | cons a cells ih =>
    obtain ⟨⟨body, t, hbody, htree, ha⟩, raw, hraw, hcells⟩ := h
    obtain ⟨fault, hvalue⟩ := ih hcells
    have hread : g.readWith (g.valueWithin cells.length) a = .error fault :=
      readWith_eq_error_iff.mpr ⟨raw, hraw, hcells.isFormula, hvalue⟩
    obtain ⟨fault', heval⟩ := Tree.evaluate_error_of_mem_references ha hread
    refine ⟨fault', ?_⟩
    rw [List.length_cons, valueWithin_succ_of_ok hbody htree, heval]
    rfl

/-- Cells that lead into a loop lead down as far as one likes. -/
theorem exists_leadsDown_of_leadsToLoop {g : Grid} {text : String} {a : Address}
    (hname : Names text a) (h : LeadsToLoop g.NamesCell a) (n : Nat) :
    ∃ cells, cells.length = n ∧ g.LeadsDown text cells := by
  induction n generalizing text a with
  | zero => exact ⟨[], rfl, hname.isFormula⟩
  | succ n ih =>
    obtain ⟨b, ⟨raw, hraw, hraws⟩, hb⟩ := leadsToLoop_iff_exists_step.mp h
    obtain ⟨cells, hlength, hcells⟩ := ih hraws hb
    refine ⟨a :: cells, ?_, hname, raw, hraw, hcells⟩
    rw [List.length_cons, hlength]

/-- Circular references are about chains of references by themselves, that is not through ranges.

A formula is a circular reference only if it can be read and cells lead down from it through all the
levels left; if they do, the formula has no value. So a formula that reaches a loop of such references
never has a value, and one that refers to no formula by itself is never a circular reference,
whatever loops or chains its ranges run into. The faults spoken of are all faults of formulas: nothing
stops the program. -/
theorem evaluate_circular_and_chains (g : Grid) (text : String) (level : Nat)
    (hlevel : level ≤ maxLevel) :
    (g.evaluate text level = .error .circular →
      (∃ body t, formulaBody? text = some body ∧ Tree.ofBody body = .ok t) ∧
      ∃ cells, cells.length = maxLevel + 1 - level ∧ g.LeadsDown text cells) ∧
    ((∃ cells, cells.length = maxLevel + 1 - level ∧ g.LeadsDown text cells) →
      ∃ fault, g.evaluate text level = .error fault) ∧
    ((∃ a b, Names text a ∧ ReflTransGen g.NamesCell a b ∧ TransGen g.NamesCell b b) →
      ∃ fault, g.evaluate text level = .error fault) ∧
    ((∀ a raw, Names text a → g.raw? a = some raw → ¬ IsFormula raw) →
      g.evaluate text level ≠ .error .circular) ∧
    g.evaluate text level ≠ .error .overflow := by
  have hlevels : levelsFrom level = (maxLevel - level) + 1 := by
    unfold levelsFrom
    omega
  have hdown : ∀ cells, cells.length = maxLevel + 1 - level → g.LeadsDown text cells →
      ∃ a rest raw, Names text a ∧ g.raw? a = some raw ∧ g.LeadsDown raw rest := by
    intro cells hlength hcells
    cases cells with
    | nil => simp only [List.length_nil] at hlength; omega
    | cons a rest =>
      obtain ⟨hname, raw, hraw, hrest⟩ := hcells
      exact ⟨a, rest, raw, hname, hraw, hrest⟩
  have herror : (∃ cells, cells.length = maxLevel + 1 - level ∧ g.LeadsDown text cells) →
      ∃ fault, g.evaluate text level = .error fault := by
    rintro ⟨cells, hlength, hcells⟩
    have hvalue := valueWithin_error_of_leadsDown hcells
    rwa [hlength] at hvalue
  refine ⟨?_, herror, ?_, ?_, g.evaluate_ne_overflow text level⟩
  · intro h
    obtain ⟨cells, hlength, hcells⟩ := leadsDown_of_circular h
    obtain ⟨a, _, _, ⟨body, t, hbody, htree, _⟩, _⟩ := hdown cells hlength hcells
    exact ⟨⟨body, t, hbody, htree⟩, cells, hlength, hcells⟩
  · rintro ⟨a, b, hname, hab, hbb⟩
    exact herror (exists_leadsDown_of_leadsToLoop hname ⟨b, hab, hbb⟩ _)
  · intro hliteral h
    obtain ⟨cells, hlength, hcells⟩ := leadsDown_of_circular h
    obtain ⟨a, _, raw, hname, hraw, hrest⟩ := hdown cells hlength hcells
    exact hliteral a raw hname hraw hrest.isFormula

/-- Two cells that add each other up in ranges, and a cell that refers to itself. -/
def rangeLoopAndSelfReference : Grid :=
  ⟨[⟨"=SUM(B1:B1)", "=SUM(A1:A1)", "=C1", "", ""⟩]⟩

/-- The cell that refers to itself has no value; the sum of the two cells that add each other up is
no circular reference, although their loop has no end. -/
theorem evaluate_circular_of_rangeLoopAndSelfReference :
    0 ≤ maxLevel ∧ (∃ fault, rangeLoopAndSelfReference.evaluate "=C1" 0 = .error fault) ∧
      rangeLoopAndSelfReference.evaluate "=SUM(A1:B1)" 0 ≠ .error .circular := by
  have hself : Names "=C1" ⟨2, 0⟩ := by
    have hbody : formulaBody? "=C1" = some ['C', '1'] := by cbv
    have htree : Tree.ofBody ['C', '1'] = .ok (.cell ⟨2, 0⟩) := by cbv
    exact ⟨_, _, hbody, htree, List.mem_singleton_self _⟩
  have hloop : rangeLoopAndSelfReference.NamesCell ⟨2, 0⟩ ⟨2, 0⟩ := ⟨"=C1", by cbv, hself⟩
  have hsum : ∀ a, ¬ Names "=SUM(A1:B1)" a := by
    rintro a ⟨body, t, hbody, htree, ha⟩
    have hbody' : formulaBody? "=SUM(A1:B1)" = some "SUM(A1:B1)".toList := by cbv
    have htree' : Tree.ofBody "SUM(A1:B1)".toList = .ok (.aggregate .sum ⟨⟨0, 0⟩, ⟨1, 0⟩⟩) := by cbv
    rw [hbody'] at hbody
    cases hbody
    rw [htree'] at htree
    cases htree
    simp [Tree.references] at ha
  refine ⟨Nat.zero_le _, ?_, ?_⟩
  · have h := evaluate_circular_and_chains rangeLoopAndSelfReference "=C1" 0 (Nat.zero_le _)
    exact h.2.2.1 ⟨⟨2, 0⟩, ⟨2, 0⟩, hself, .refl, .single hloop⟩
  · have h := evaluate_circular_and_chains rangeLoopAndSelfReference "=SUM(A1:B1)" 0
      (Nat.zero_le _)
    exact h.2.2.2.1 fun a raw hname _ => absurd hname (hsum a)

end Grid

end LessonGrid
