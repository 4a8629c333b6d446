import Mathlib
import LessonGrid.Exercise.Basic
import LessonGrid.Proofs.Dependency.Circular

/-!
# The cycle that an edit reports

An edit of a cell of the grid is always made. What it reports beside the exercise is the way found
from the cell in the grid after the edit, whether the new text is a formula or not. That is some way
exactly when the cell leads into a loop, which need not go through the cell; and the way is a cycle
through the cell exactly when the first choices from the cell come back to it.

Main statements: `edit_of_raw?` and `edit_reportsOwnCycle_iff`.
-/

set_option autoImplicit false

namespace LessonGrid

open Relation

namespace Grid

/-- No way is found from a cell whose text is no formula. -/
theorem findCycle?_of_formulaBody?_none {g : Grid} {a : Address} {text : String}
    (hraw : g.raw? a = some text) (htext : formulaBody? text = none) : g.findCycle? a = none := by
  rw [findCycle?_eq_none_iff]
  intro hloop
  obtain ⟨b, hab, _⟩ := leadsToLoop_iff_exists_step.mp hloop
  have hmem : b ∈ LessonGrid.dependencies text := (edge_iff_of_raw? hraw).mp hab
  simp [LessonGrid.dependencies, htext] at hmem

/-- The report on a cell is right when there is one exactly if the cell lies on a cycle of references,
and when it is such a cycle, from the cell back to the cell. -/
def ReportsOwnCycle (g : Grid) (a : Address) (found : Option (List Address)) : Prop :=
  (found.isSome = true ↔ TransGen g.Edge a a) ∧
    ∀ way, found = some way → ∃ loop, way = a :: (loop ++ [a]) ∧ way.IsChain g.Edge

/-- The way found from a cell is a right report exactly when the cell leads into no loop, or its
first choices come back to it. -/
theorem findCycle?_reportsOwnCycle_iff {g : Grid} {a : Address} :
    g.ReportsOwnCycle a (g.findCycle? a) ↔
      (LeadsToLoop g.Edge a → TransGen g.FirstChoice a a) := by
  cases hfound : g.findCycle? a with
  | none =>
    have hclear : ¬ LeadsToLoop g.Edge a := findCycle?_eq_none_iff.mp hfound
    have hcycle : ¬ TransGen g.Edge a a := fun h => hclear ⟨a, .refl, h⟩
    simp [ReportsOwnCycle, hclear, hcycle]
  | some way =>
    obtain ⟨tail, rfl, hlasso⟩ := findCycle?_isLasso_firstChoice hfound
    have hleads : LeadsToLoop g.Edge a := by
      by_contra h
      rw [findCycle?_eq_none_iff.mpr h] at hfound
      cases hfound
    have hreturns := hlasso.getLast?_eq_head_iff (firstChoice_rightUnique g)
    constructor
    · rintro ⟨_, hway⟩ _
      obtain ⟨loop, hloop, _⟩ := hway _ rfl
      refine hreturns.mp ?_
      rw [hloop]
      exact getLast?_lasso [] loop a
    · intro h
      obtain ⟨loop, hloop⟩ := hlasso.eq_loop_of_getLast? (hreturns.mpr (h hleads))
      refine ⟨iff_of_true rfl (transGen_edge_of_firstChoice (h hleads)), ?_⟩
      rintro _ ⟨⟩
      exact ⟨loop, hloop, hlasso.chain.imp fun _ _ hstep => hstep.edge⟩

end Grid

namespace Exercise

/-- An edit of a cell of the grid puts the text there and reports the way found from the cell
afterwards; a text that is no formula needs no search, since none would find anything. -/
theorem edit_of_raw? {ex : Exercise} {a : Address} {old : String} (hraw : ex.raw? a = some old)
    (text : String) :
    ex.edit a text = .ok (ex.write a text, (ex.write a text).grid.findCycle? a) := by
  have hafter : (ex.write a text).grid.raw? a = some text := by
    have hold : ex.grid.raw? a = some old := hraw
    simp only [write, Grid.raw?_set, if_true, hold, Option.map_some]
  simp only [edit, hraw]
  split
  · next htext => rw [Grid.findCycle?_of_formulaBody?_none hafter htext]
  · rfl

/-- An edit of a cell of the grid is always made. It reports a way whenever the cell lies on a cycle
of references afterwards, but not only then: it does so exactly when the cell leads into a loop. The
way starts at the cell and runs along the references into that loop. The report is right, that is a
cycle through the cell where there is one and nothing elsewhere, exactly when the cell leads into no
loop or its first choices come back to it. -/
theorem edit_reportsOwnCycle_iff (ex : Exercise) (a : Address) (text : String)
    (hcell : (ex.raw? a).isSome = true) :
    ∃ found, ex.edit a text = .ok (ex.write a text, found) ∧
      (found.isSome = true ↔ LeadsToLoop (ex.write a text).grid.Edge a) ∧
      (TransGen (ex.write a text).grid.Edge a a → found.isSome = true) ∧
      (∀ way, found = some way →
        way.head? = some a ∧ IsLasso (ex.write a text).grid.Edge way) ∧
      ((ex.write a text).grid.ReportsOwnCycle a found ↔
        (LeadsToLoop (ex.write a text).grid.Edge a →
          TransGen (ex.write a text).grid.FirstChoice a a)) := by
  obtain ⟨old, hraw⟩ := Option.isSome_iff_exists.mp hcell
  have hsome : ((ex.write a text).grid.findCycle? a).isSome = true ↔
      LeadsToLoop (ex.write a text).grid.Edge a := by
    rw [← not_iff_not, Bool.not_eq_true, Option.isSome_eq_false_iff, Option.isNone_iff_eq_none]
    exact Grid.findCycle?_eq_none_iff
  refine ⟨_, edit_of_raw? hraw text, hsome, ?_, ?_, Grid.findCycle?_reportsOwnCycle_iff⟩
  · intro hcycle
    exact hsome.mpr ⟨a, .refl, hcycle⟩
  · intro way hfound
    obtain ⟨tail, rfl, hlasso, _⟩ := Grid.findCycle?_isLasso hfound
    exact ⟨rfl, hlasso⟩

/-- An exercise whose cell `B1` refers to itself and whose cell `C1` refers to `A1`, which is empty. -/
def loopAside : Exercise :=
  ofRows [⟨"", "=B1", "=A1", "", ""⟩]

/-- With `=C1` the cell `A1` is on a cycle with `C1`, and the edit reports one. -/
theorem edit_reports_closed_cycle : (loopAside.raw? ⟨0, 0⟩).isSome = true ∧
    ∃ found, loopAside.edit ⟨0, 0⟩ "=C1" = .ok (loopAside.write ⟨0, 0⟩ "=C1", found) ∧
      found.isSome = true := by
  have hcell : (loopAside.raw? ⟨0, 0⟩).isSome = true := by cbv
  refine ⟨hcell, ?_⟩
  obtain ⟨found, hedit, _, hcycle, _⟩ := edit_reportsOwnCycle_iff loopAside ⟨0, 0⟩ "=C1" hcell
  have hthere : (loopAside.write ⟨0, 0⟩ "=C1").grid.dependencies ⟨0, 0⟩ = [⟨2, 0⟩] := by cbv
  have hback : (loopAside.write ⟨0, 0⟩ "=C1").grid.dependencies ⟨2, 0⟩ = [⟨0, 0⟩] := by cbv
  have hfirst : (loopAside.write ⟨0, 0⟩ "=C1").grid.Edge ⟨0, 0⟩ ⟨2, 0⟩ := by
    simp [Grid.Edge, hthere]
  have hsecond : (loopAside.write ⟨0, 0⟩ "=C1").grid.Edge ⟨2, 0⟩ ⟨0, 0⟩ := by
    simp [Grid.Edge, hback]
  exact ⟨found, hedit, hcycle (.tail (.single hfirst) hsecond)⟩

/-- With `=B1` the cell `A1` is on no cycle, but the edit reports the loop of `B1`. With `=B1+C1` it is
on a cycle with `C1`, and the edit reports the loop of `B1` again. -/
theorem edit_reports_loop_of_other_cell :
    (loopAside.edit ⟨0, 0⟩ "=B1" =
        .ok (loopAside.write ⟨0, 0⟩ "=B1", some [⟨0, 0⟩, ⟨1, 0⟩, ⟨1, 0⟩]) ∧
      ¬ TransGen (loopAside.write ⟨0, 0⟩ "=B1").grid.Edge ⟨0, 0⟩ ⟨0, 0⟩) ∧
    loopAside.edit ⟨0, 0⟩ "=B1+C1" =
        .ok (loopAside.write ⟨0, 0⟩ "=B1+C1", some [⟨0, 0⟩, ⟨1, 0⟩, ⟨1, 0⟩]) ∧
      TransGen (loopAside.write ⟨0, 0⟩ "=B1+C1").grid.Edge ⟨0, 0⟩ ⟨0, 0⟩ := by
  have hraw : loopAside.raw? ⟨0, 0⟩ = some "" := by cbv
  refine ⟨⟨?_, ?_⟩, ?_, ?_⟩
  · rw [edit_of_raw? hraw]
    have hfound : (loopAside.write ⟨0, 0⟩ "=B1").grid.findCycle? ⟨0, 0⟩ =
        some [⟨0, 0⟩, ⟨1, 0⟩, ⟨1, 0⟩] := by cbv
    rw [hfound]
  · have hfrom : ∀ b, (loopAside.write ⟨0, 0⟩ "=B1").grid.Edge ⟨0, 0⟩ b → b = ⟨1, 0⟩ := by
      have hdeps : (loopAside.write ⟨0, 0⟩ "=B1").grid.dependencies ⟨0, 0⟩ = [⟨1, 0⟩] := by cbv
      simp [Grid.Edge, hdeps]
    have hloop : ∀ b, (loopAside.write ⟨0, 0⟩ "=B1").grid.Edge ⟨1, 0⟩ b → b = ⟨1, 0⟩ := by
      have hdeps : (loopAside.write ⟨0, 0⟩ "=B1").grid.dependencies ⟨1, 0⟩ = [⟨1, 0⟩] := by cbv
      simp [Grid.Edge, hdeps]
    have hreached : ∀ b, TransGen (loopAside.write ⟨0, 0⟩ "=B1").grid.Edge ⟨0, 0⟩ b →
        b = ⟨1, 0⟩ := by
      intro b hb
      induction hb with
      | single hstep => exact hfrom _ hstep
      | tail _ hstep ih => exact hloop _ (ih ▸ hstep)
    intro hcycle
    exact absurd (hreached _ hcycle) (by decide)
  · rw [edit_of_raw? hraw]
    have hfound : (loopAside.write ⟨0, 0⟩ "=B1+C1").grid.findCycle? ⟨0, 0⟩ =
        some [⟨0, 0⟩, ⟨1, 0⟩, ⟨1, 0⟩] := by cbv
    rw [hfound]
  · have hthere : (loopAside.write ⟨0, 0⟩ "=B1+C1").grid.dependencies ⟨0, 0⟩ =
        [⟨1, 0⟩, ⟨2, 0⟩] := by cbv
    have hback : (loopAside.write ⟨0, 0⟩ "=B1+C1").grid.dependencies ⟨2, 0⟩ = [⟨0, 0⟩] := by cbv
    have hfirst : (loopAside.write ⟨0, 0⟩ "=B1+C1").grid.Edge ⟨0, 0⟩ ⟨2, 0⟩ := by
      simp [Grid.Edge, hthere]
    have hsecond : (loopAside.write ⟨0, 0⟩ "=B1+C1").grid.Edge ⟨2, 0⟩ ⟨0, 0⟩ := by
      simp [Grid.Edge, hback]
    exact .tail (.single hfirst) hsecond

end Exercise

end LessonGrid
