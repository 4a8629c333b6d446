import Mathlib
import LessonGrid.Exercise.Basic
import LessonGrid.Proofs.Dependency.Search
import LessonGrid.Proofs.Grid.Order

/-!
# The cells listed as circular

An exercise judges each cell by the way found from it alone, which is the lasso of the first choices.
The cells listed are therefore those whose first choices come back to them. All of them lie on a
cycle of references; of the cells that do, one is missing when its first choices run into another
loop that never comes back to it.

A search that starts again on the loop it has found goes around the same loop, although it passes
through cells again that the first search was done with (`findCycle?_of_isLasso`).

Main statements: `mem_circularCells_iff`, `findCycle?_restarts_on_loop` and
`circularCells_eq_returning_cells`.
-/

set_option autoImplicit false

namespace LessonGrid

open Relation

namespace Grid

/-- The first choices from a cell are references. -/
theorem transGen_edge_of_firstChoice {g : Grid} {a b : Address} (h : TransGen g.FirstChoice a b) :
    TransGen g.Edge a b := by
  induction h with
  | single hstep => exact .single hstep.edge
  | tail _ hstep ih => exact ih.tail hstep.edge

/-- References lead on only from cells of the grid. -/
theorem raw?_isSome_of_transGen_edge {g : Grid} {a b : Address} (h : TransGen g.Edge a b) :
    (g.raw? a).isSome = true := by
  obtain ⟨c, hac, _⟩ := TransGen.head'_iff.mp h
  exact raw?_isSome_of_edge hac

/-- The way found from a cell is a lasso of first choices. -/
theorem findCycle?_isLasso_firstChoice {g : Grid} {a : Address} {way : List Address}
    (h : g.findCycle? a = some way) : ∃ tail, way = a :: tail ∧ IsLasso g.FirstChoice way := by
  obtain ⟨tail, rfl, hlasso, hchoices⟩ := findCycle?_isLasso h
  exact ⟨tail, rfl, hchoices, hlasso.nodup, hlasso.closes⟩

/-- The way found from a cell closes through the cell exactly when it ends there. -/
theorem closesThrough_iff {g : Grid} {a : Address} :
    g.closesThrough a = true ↔ ∃ way, g.findCycle? a = some way ∧ way.getLast? = some a := by
  unfold closesThrough
  cases hfound : g.findCycle? a with
  | none => simp
  | some way =>
    obtain ⟨tail, rfl, hlasso⟩ := findCycle?_isLasso_firstChoice hfound
    obtain ⟨lead, q, loop, hway⟩ := hlasso.closes
    have hlast : (a :: tail).getLast? = some q := by rw [hway, getLast?_lasso]
    have hq : q ∉ lead := (hway ▸ hlasso).not_mem_lead
    have hloop : (a :: tail).dropWhile (fun b => some b ≠ some q) = q :: (loop ++ [q]) := by
      rw [hway, dropWhile_lasso hq]
    simp only [hlast, hloop, List.contains_iff_mem, Option.some.injEq, exists_eq_left']
    constructor
    · intro hmem
      exact hlasso.eq_head_of_mem_loop hway (by simpa [or_comm] using hmem)
    · rintro rfl
      exact List.mem_cons_self

/-- A cell is listed exactly when its first choices come back to it. -/
theorem mem_circularCells_iff {g : Grid} {a : Address} :
    a ∈ g.circularCells ↔ TransGen g.FirstChoice a a := by
  unfold circularCells
  rw [List.mem_filter, closesThrough_iff]
  constructor
  · rintro ⟨_, way, hfound, hlast⟩
    obtain ⟨tail, rfl, hlasso⟩ := findCycle?_isLasso_firstChoice hfound
    exact (hlasso.getLast?_eq_head_iff (firstChoice_rightUnique g)).mp hlast
  · intro hreturns
    have hcycle := transGen_edge_of_firstChoice hreturns
    obtain ⟨text, hraw⟩ := Option.isSome_iff_exists.mp (raw?_isSome_of_transGen_edge hcycle)
    refine ⟨mem_addresses_of_raw? hraw, ?_⟩
    cases hfound : g.findCycle? a with
    | none => exact absurd ⟨a, .refl, hcycle⟩ (findCycle?_eq_none_iff.mp hfound)
    | some way =>
      obtain ⟨tail, rfl, hlasso⟩ := findCycle?_isLasso_firstChoice hfound
      refine ⟨a :: tail, rfl, ?_⟩
      exact (hlasso.getLast?_eq_head_iff (firstChoice_rightUnique g)).mpr hreturns

/-- From a cell that leads into a loop the first choices run into a loop of their own. -/
theorem exists_loop_of_firstChoice {g : Grid} {a : Address} (h : LeadsToLoop g.Edge a) :
    LeadsToLoop g.FirstChoice a := by
  cases hfound : g.findCycle? a with
  | none => exact absurd h (findCycle?_eq_none_iff.mp hfound)
  | some way =>
    obtain ⟨tail, rfl, hlasso⟩ := findCycle?_isLasso_firstChoice hfound
    exact hlasso.leadsToLoop List.mem_cons_self

/-- A cell on a cycle is missing exactly when its first choices run into a loop that does not come
back to it. -/
theorem not_mem_circularCells_iff {g : Grid} {a : Address} (h : TransGen g.Edge a a) :
    a ∉ g.circularCells ↔ ∃ b, ReflTransGen g.FirstChoice a b ∧ TransGen g.FirstChoice b b ∧
      ¬ ReflTransGen g.FirstChoice b a := by
  rw [mem_circularCells_iff]
  constructor
  · intro hmissing
    obtain ⟨b, hab, hbb⟩ := exists_loop_of_firstChoice ⟨a, .refl, h⟩
    refine ⟨b, hab, hbb, ?_⟩
    intro hba
    exact hmissing ((TransGen.trans_right hab hbb).trans_left hba)
  · rintro ⟨b, hab, _, hba⟩ hreturns
    exact hba (reflTransGen_symm_of_transGen_self (firstChoice_rightUnique g) hreturns hab)

/-! ## Restarts -/

/-- The first choices from a cell make at most one lasso, so a search that starts on a loop of them
goes around it, whatever an earlier search was done with before it came there. -/
theorem findCycle?_of_isLasso {g : Grid} {a : Address} {tail : List Address}
    (h : IsLasso g.FirstChoice (a :: tail)) : g.findCycle? a = some (a :: tail) := by
  obtain ⟨b, hab, hbb⟩ := h.leadsToLoop List.mem_cons_self
  have hedge : LeadsToLoop g.Edge a :=
    ⟨b, hab.lift id fun _ _ hstep => hstep.edge, transGen_edge_of_firstChoice hbb⟩
  obtain ⟨way, hfound⟩ := Option.isSome_iff_exists.mp (findCycle?_isSome_iff.mpr hedge)
  obtain ⟨tail', rfl, hlasso⟩ := findCycle?_isLasso_firstChoice hfound
  rw [hfound, hlasso.unique (firstChoice_rightUnique g) h]

/-- What is found from a cell rests on the dependencies of the cells alone. -/
theorem findCycle?_congr {g h : Grid} (hdeps : ∀ a, g.dependencies a = h.dependencies a)
    (a : Address) : g.findCycle? a = h.findCycle? a := by
  have hedge : g.Edge = h.Edge := by
    funext b c
    rw [Edge, hdeps, Edge]
  have hchoice : g.FirstChoice = h.FirstChoice := by
    funext b c
    simp only [FirstChoice, hdeps, hedge]
  cases hfound : g.findCycle? a with
  | none =>
    rw [findCycle?_eq_none_iff, hedge, ← findCycle?_eq_none_iff] at hfound
    exact hfound.symm
  | some way =>
    obtain ⟨tail, rfl, hlasso⟩ := findCycle?_isLasso_firstChoice hfound
    exact (findCycle?_of_isLasso (hchoice ▸ hlasso)).symm

/-- Where a way is found, the cell that ends it is listed. -/
theorem getLast_mem_circularCells {g : Grid} {a q : Address} {way : List Address}
    (h : g.findCycle? a = some way) (hlast : way.getLast? = some q) : q ∈ g.circularCells := by
  obtain ⟨tail, rfl, hlasso⟩ := findCycle?_isLasso_firstChoice h
  obtain ⟨lead, loop, hway⟩ := hlasso.closes_at hlast
  have hchain : (lead ++ q :: (loop ++ [q])).IsChain g.FirstChoice := hway ▸ hlasso.chain
  exact mem_circularCells_iff.mpr (transGen_of_isChain hchain.right_of_append)

/-- A cell that is listed has a text, and a way is found from it. -/
theorem findCycle?_isSome_of_mem_circularCells {g : Grid} {a : Address}
    (h : a ∈ g.circularCells) :
    (g.raw? a).isSome = true ∧ (g.findCycle? a).isSome = true := by
  have hcycle := transGen_edge_of_firstChoice (mem_circularCells_iff.mp h)
  exact ⟨raw?_isSome_of_transGen_edge hcycle, findCycle?_isSome_iff.mpr ⟨a, .refl, hcycle⟩⟩

/-- A way found from any cell ends with the way found from its last cell, which is the part of it from
the first visit to that cell on. So no cell is listed as circular exactly when nothing is found from
any cell of the grid. -/
theorem findCycle?_restarts_on_loop (g : Grid) :
    (∀ a way, g.findCycle? a = some way →
      ∃ lead q loop, way = lead ++ q :: loop ∧ way.getLast? = some q ∧ q ∉ lead ∧
        g.findCycle? q = some (q :: loop)) ∧
    (g.circularCells = [] ↔ ∀ a, (g.raw? a).isSome = true → g.findCycle? a = none) := by
  constructor
  · intro a way hfound
    obtain ⟨tail, rfl, hlasso⟩ := findCycle?_isLasso_firstChoice hfound
    obtain ⟨lead, q, loop, hway⟩ := hlasso.closes
    rw [hway] at hlasso ⊢
    exact ⟨lead, q, loop ++ [q], rfl, getLast?_lasso lead loop q, hlasso.not_mem_lead,
      findCycle?_of_isLasso hlasso.loop⟩
  · constructor
    · intro hnone a _
      cases hfound : g.findCycle? a with
      | none => rfl
      | some way =>
        obtain ⟨tail, rfl, -⟩ := findCycle?_isLasso_firstChoice hfound
        have hlast := List.getLast?_eq_some_getLast (List.cons_ne_nil a tail)
        have hlisted := getLast_mem_circularCells hfound hlast
        rw [hnone] at hlisted
        cases hlisted
    · intro hnone
      refine List.eq_nil_iff_forall_not_mem.mpr fun a ha => ?_
      obtain ⟨hraw, hsome⟩ := findCycle?_isSome_of_mem_circularCells ha
      rw [hnone a hraw] at hsome
      cases hsome

/-- A loop beside a cell that is done first: `A1` refers to `E1` and then to the loop of `B1` and `C1`,
which refers to `E1` as well. -/
def loopBehindDone : Grid :=
  ⟨[⟨"=E1+B1", "=E1+C1", "=B1", "", "=D1"⟩]⟩

/-- From `A1` the search is done with `E1` before it meets the loop; from `B1` it passes through `E1`
again and goes the same way. -/
theorem findCycle?_restarts_behind_done :
    loopBehindDone.findCycle? ⟨0, 0⟩ = some [⟨0, 0⟩, ⟨1, 0⟩, ⟨2, 0⟩, ⟨1, 0⟩] ∧
      loopBehindDone.findCycle? ⟨1, 0⟩ = some [⟨1, 0⟩, ⟨2, 0⟩, ⟨1, 0⟩] := by
  have hfound : loopBehindDone.findCycle? ⟨0, 0⟩ =
      some [⟨0, 0⟩, ⟨1, 0⟩, ⟨2, 0⟩, ⟨1, 0⟩] := by cbv
  refine ⟨hfound, ?_⟩
  obtain ⟨lead, q, loop, hsplit, hlast, hlead, hagain⟩ :=
    (findCycle?_restarts_on_loop loopBehindDone).1 _ _ hfound
  obtain rfl : ⟨1, 0⟩ = q := by simpa using hlast
  cases lead with
  | nil => simp at hsplit
  | cons a lead =>
    cases lead with
    | nil =>
      obtain ⟨-, rfl⟩ : _ ∧ [⟨2, 0⟩, ⟨1, 0⟩] = loop := by simpa using hsplit
      exact hagain
    | cons b lead =>
      obtain ⟨-, rfl, -⟩ : _ ∧ ⟨1, 0⟩ = b ∧ _ := by simpa using hsplit
      simp at hlead

end Grid

/-- The cells listed as circular are, in the order of the grid and without repetition, those whose
first choices come back to them. Each of them lies on a cycle of references; a cell that lies on one
is missing exactly when its first choices run into another loop. -/
theorem circularCells_eq_returning_cells (ex : Exercise) :
    ex.circularCells.Pairwise Address.Before ∧ ex.circularCells.Nodup ∧
    (∀ a, a ∈ ex.circularCells ↔ TransGen ex.grid.FirstChoice a a) ∧
    (∀ a ∈ ex.circularCells, TransGen ex.grid.Edge a a) ∧
    (∀ a, TransGen ex.grid.Edge a a → (a ∉ ex.circularCells ↔
      ∃ b, ReflTransGen ex.grid.FirstChoice a b ∧ TransGen ex.grid.FirstChoice b b ∧
        ¬ ReflTransGen ex.grid.FirstChoice b a)) := by
  have hrows : ex.grid.rows.length ≤ 2 ^ 64 := by
    rw [ex.length_rows]
    decide
  have hordered : ex.circularCells.Pairwise Address.Before :=
    (Grid.addresses_pairwise_before hrows).filter _
  refine ⟨hordered, hordered.imp Address.Before.ne, fun _ => Grid.mem_circularCells_iff, ?_,
    fun _ => Grid.not_mem_circularCells_iff⟩
  intro a ha
  exact Grid.transGen_edge_of_firstChoice (Grid.mem_circularCells_iff.mp ha)

/-- Two loops through one formula: `A1` refers to `B1` and then to `C1`, which refers back to it, and
`B1` refers to itself. -/
def twoLoops : Exercise :=
  .ofRows [⟨"=B1+C1", "=B1", "=A1", "", ""⟩]

/-- The first cell of `twoLoops` lies on the cycle through `C1` and is not listed, since its first
choice is `B1`. -/
theorem circularCells_misses_cell_on_cycle :
    TransGen twoLoops.grid.Edge ⟨0, 0⟩ ⟨0, 0⟩ ∧ ⟨0, 0⟩ ∉ twoLoops.circularCells := by
  have hthere : twoLoops.grid.dependencies ⟨0, 0⟩ = [⟨1, 0⟩, ⟨2, 0⟩] := by cbv
  have hback : twoLoops.grid.dependencies ⟨2, 0⟩ = [⟨0, 0⟩] := by cbv
  have hcloses : twoLoops.grid.closesThrough ⟨0, 0⟩ = false := by cbv
  constructor
  · have hfirst : twoLoops.grid.Edge ⟨0, 0⟩ ⟨2, 0⟩ := by simp [Grid.Edge, hthere]
    have hsecond : twoLoops.grid.Edge ⟨2, 0⟩ ⟨0, 0⟩ := by simp [Grid.Edge, hback]
    exact .tail (.single hfirst) hsecond
  · intro hmem
    have htrue := (List.mem_filter.mp hmem).2
    rw [hcloses] at htrue
    cases htrue

end LessonGrid
