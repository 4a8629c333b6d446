import Mathlib
import LessonGrid.Proofs.Dependency.Circular
import LessonGrid.Proofs.Evaluation.Reads
import LessonGrid.Proofs.Formula.LetterCase

/-!
# Grids in other letters

Formulas that differ in the case of their letters alone have the same tree. When the formulas of a grid
are put in other case, each cell is read with the same outcome on every level, and each cell depends on
the same cells; so neither the values of the cells nor the cycles of references change. Texts that are
no formulas stay as they are: they are shown as typed.

Main statement: `Grid.letterCase_never_matters`.
-/

set_option autoImplicit false

namespace LessonGrid

/-! ## Texts in other letters -/

/-- Both texts have the same characters, but for the case of ASCII letters. -/
def SameLetters (s t : String) : Prop :=
  s.toList.map Char.toUpper = t.toList.map Char.toUpper

instance (s t : String) : Decidable (SameLetters s t) :=
  inferInstanceAs (Decidable (_ = _))

/-- The second text is the first one, or a formula with the letters of the first one in other case. -/
inductive Recased (s t : String) : Prop
  | same (heq : s = t)
  | formula (hformula : IsFormula s) (hletters : SameLetters s t)

variable {s t : String}

/-- The sign that makes a formula has no case. -/
theorem SameLetters.formulaBody?_map (h : SameLetters s t) :
    (formulaBody? s).map (List.map Char.toUpper) = (formulaBody? t).map (List.map Char.toUpper) := by
  have hbody : ∀ cs : List Char, formulaBody? (String.ofList (cs.map Char.toUpper)) =
      (formulaBody? (String.ofList cs)).map (List.map Char.toUpper) := by
    intro cs
    simp only [formulaBody?, String.toList_ofList]
    cases cs with
    | nil => rfl
    | cons c cs =>
      rcases mark_or_ne (d := '=') rfl c with ⟨rfl, hsign⟩ | ⟨hsign, hsign'⟩
      · rw [List.map_cons, hsign]
        rfl
      · simp [hsign, hsign']
  have hs := hbody s.toList
  have ht := hbody t.toList
  rw [String.ofList_toList] at hs ht
  rw [← hs, ← ht, h]

/-- Both texts are no formulas, or the bodies of both have the same tree or the same fault. -/
theorem SameLetters.formulaBody?_cases (h : SameLetters s t) :
    (formulaBody? s = none ∧ formulaBody? t = none) ∨
      ∃ body body', formulaBody? s = some body ∧ formulaBody? t = some body' ∧
        Tree.ofBody body = Tree.ofBody body' := by
  have hmap := h.formulaBody?_map
  cases hs : formulaBody? s with
  | none =>
    rw [hs, Option.map_none, eq_comm, Option.map_eq_none_iff] at hmap
    exact .inl ⟨rfl, hmap⟩
  | some body =>
    rw [hs, Option.map_some, eq_comm] at hmap
    obtain ⟨body', ht, hbodies⟩ := Option.map_eq_some_iff.mp hmap
    refine .inr ⟨body, body', rfl, ht, ?_⟩
    rw [← Tree.ofBody_map_toUpper body, ← hbodies, Tree.ofBody_map_toUpper]

theorem Recased.sameLetters (h : Recased s t) : SameLetters s t := by
  cases h with
  | same heq => rw [heq, SameLetters]
  | formula _ hletters => exact hletters

theorem Recased.eq_of_not_isFormula (h : Recased s t) (hs : ¬ IsFormula s) : s = t := by
  cases h with
  | same heq => exact heq
  | formula hformula _ => exact absurd hformula hs

theorem Recased.isFormula_iff (h : Recased s t) : IsFormula s ↔ IsFormula t := by
  rcases h.sameLetters.formulaBody?_cases with ⟨hs, ht⟩ | ⟨body, body', hs, ht, _⟩
  · simp only [IsFormula, hs, ht]
  · simp only [IsFormula, hs, ht, Option.isSome_some]

/-- A text depends on the same cells in other letters. -/
theorem Recased.dependencies (h : Recased s t) : dependencies s = dependencies t := by
  rcases h.sameLetters.formulaBody?_cases with ⟨hs, ht⟩ | ⟨body, body', hs, ht, htree⟩
  · simp only [LessonGrid.dependencies, hs, ht]
  · simp only [LessonGrid.dependencies, hs, ht, htree]

namespace Grid

/-- The second grid has the cells of the first one, some of its formulas in other letters. -/
def Recased (g h : Grid) : Prop :=
  List.Forall₂ (fun row row' : Row => ∀ col, LessonGrid.Recased (row.get col) (row'.get col))
    g.rows h.rows

variable {g h : Grid}

/-- An address names a cell of both grids, with texts alike, or of neither. -/
theorem Recased.raw? (hgh : g.Recased h) (a : Address) :
    (g.raw? a = none ∧ h.raw? a = none) ∨
      ∃ s t, g.raw? a = some s ∧ h.raw? a = some t ∧ LessonGrid.Recased s t := by
  cases hcol : a.column? with
  | none => exact .inl ⟨by simp [Grid.raw?, hcol], by simp [Grid.raw?, hcol]⟩
  | some col =>
    by_cases hrow : a.row.toNat < g.rows.length
    · have hrow' : a.row.toNat < h.rows.length := by rwa [← List.Forall₂.length_eq hgh]
      refine .inr ⟨_, _, ?_, ?_, hgh.get hrow hrow' col⟩
      · simp [Grid.raw?, hcol, hrow]
      · simp [Grid.raw?, hcol, hrow']
    · have hrow' : ¬ a.row.toNat < h.rows.length := by rwa [← List.Forall₂.length_eq hgh]
      exact .inl ⟨by simp [Grid.raw?, hcol, hrow], by simp [Grid.raw?, hcol, hrow']⟩

/-- A cell of the one grid is read as the cell of the other, when formulas in other letters have the
same value. -/
theorem Recased.readWith {value value' : String → Except Fault Value} (hgh : g.Recased h)
    (hvalue : ∀ s t, LessonGrid.Recased s t → value s = value' t) (a : Address) :
    g.readWith value a = h.readWith value' a := by
  rcases hgh.raw? a with ⟨hg, hh⟩ | ⟨s, t, hg, hh, hst⟩
  · simp only [Grid.readWith, hg, hh]
  · by_cases hformula : IsFormula s
    · rw [readWith_of_isFormula hg hformula, readWith_of_isFormula hh (hst.isFormula_iff.mp hformula),
        hvalue s t hst]
    · obtain rfl := hst.eq_of_not_isFormula hformula
      rw [readWith_of_not_isFormula hg hformula, readWith_of_not_isFormula hh hformula]

/-- By induction on the levels: a tree on one level reads cells of the level below. -/
theorem Recased.valueWithin (hgh : g.Recased h) (levels : Nat) :
    ∀ s t, LessonGrid.Recased s t → g.valueWithin levels s = h.valueWithin levels t := by
  induction levels with
  | zero =>
    intro s t hst
    by_cases hformula : IsFormula s
    · rw [valueWithin_zero hformula, valueWithin_zero (hst.isFormula_iff.mp hformula)]
    · obtain rfl := hst.eq_of_not_isFormula hformula
      rw [valueWithin_of_not_isFormula hformula, valueWithin_of_not_isFormula hformula]
  | succ levels ih =>
    intro s t hst
    rcases hst.sameLetters.formulaBody?_cases with ⟨hs, _⟩ | ⟨body, body', hs, ht, htree⟩
    · have hliteral : ¬ IsFormula s := not_isFormula_iff.mpr hs
      obtain rfl := hst.eq_of_not_isFormula hliteral
      rw [valueWithin_of_not_isFormula hliteral, valueWithin_of_not_isFormula hliteral]
    · cases hbody : Tree.ofBody body with
      | error fault =>
        rw [valueWithin_succ_of_error hs hbody, valueWithin_succ_of_error ht (htree ▸ hbody)]
      | ok tree =>
        rw [valueWithin_succ_of_ok hs hbody, valueWithin_succ_of_ok ht (htree ▸ hbody),
          Tree.evaluate_congr fun a _ => hgh.readWith ih a]

theorem Recased.dependencies (hgh : g.Recased h) (a : Address) :
    g.dependencies a = h.dependencies a := by
  rcases hgh.raw? a with ⟨hg, hh⟩ | ⟨s, t, hg, hh, hst⟩
  · simp only [Grid.dependencies, hg, hh]
  · simp only [Grid.dependencies, hg, hh, hst.dependencies]

theorem Recased.valueAt (hgh : g.Recased h) (a : Address) : g.valueAt a = h.valueAt a := by
  rcases hgh.raw? a with ⟨hg, hh⟩ | ⟨s, t, hg, hh, hst⟩
  · simp only [Grid.valueAt, hg, hh]
  · simp only [Grid.valueAt, hg, hh]
    exact hgh.valueWithin _ s t hst

/-- Letter case does not matter in formulas. The body of a formula in capitals is read as the same tree,
or refused with the same fault. When formulas of a grid are put in other letters, every cell has the
value that it had, or the same fault, depends on the same cells in the same order, and leads along them
to the same cycle, if to any. -/
theorem letterCase_never_matters :
    (∀ body, Tree.ofBody (body.map Char.toUpper) = Tree.ofBody body) ∧
    ∀ g h : Grid, g.Recased h → ∀ a, g.valueAt a = h.valueAt a ∧
      g.dependencies a = h.dependencies a ∧ g.findCycle? a = h.findCycle? a := by
  refine ⟨Tree.ofBody_map_toUpper, ?_⟩
  intro g h hgh a
  exact ⟨hgh.valueAt a, hgh.dependencies a, findCycle?_congr hgh.dependencies a⟩

/-- A lesson with a sum, a call of a function that does not exist, and two formulas that refer to each
other; there is a note, too, that reads like the name of a function. -/
def smallLetters : Grid :=
  ⟨[⟨"=sum(c1:d2)*c1", "=1+avg(c1:c2)", "12", "Sum", ""⟩, ⟨"", "=c2", "=b2-a1", "", ""⟩]⟩

/-- The formulas of `smallLetters` in small letters and capitals. -/
def mixedLetters : Grid :=
  ⟨[⟨"=Sum(C1:d2)*C1", "=1+aVG(C1:c2)", "12", "Sum", ""⟩, ⟨"", "=C2", "=B2-a1", "", ""⟩]⟩

/-- Both lessons show the same, faults included, and go around the same loop. -/
theorem letterCase_in_lesson :
    smallLetters.Recased mixedLetters ∧
    ∀ a, smallLetters.valueAt a = mixedLetters.valueAt a ∧
      smallLetters.dependencies a = mixedLetters.dependencies a ∧
      smallLetters.findCycle? a = mixedLetters.findCycle? a := by
  have hrecased : smallLetters.Recased mixedLetters := by
    refine .cons ?_ (.cons ?_ .nil)
    · rintro (_ | _ | _ | _ | _)
      · exact .formula rfl (by decide)
      · exact .formula rfl (by decide)
      · exact .same rfl
      · exact .same rfl
      · exact .same rfl
    · rintro (_ | _ | _ | _ | _)
      · exact .same rfl
      · exact .formula rfl (by decide)
      · exact .formula rfl (by decide)
      · exact .same rfl
      · exact .same rfl
  exact ⟨hrecased, letterCase_never_matters.2 _ _ hrecased⟩

end Grid

end LessonGrid
