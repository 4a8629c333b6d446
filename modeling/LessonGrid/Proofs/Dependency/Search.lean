import LessonGrid.Dependency.Cycle
import LessonGrid.Proofs.Dependency.Loop
import Mathlib.Data.List.Nodup

/-!
# The search for a cycle of references

The graph of a grid has an edge from a cell to each of its dependencies. `findCycle?` walks it depth
first, and this module says what it finds: nothing exactly where no cycle can be reached, and
otherwise the lasso of the first choices, which goes on from each cell to the first dependency that
leads into a loop.

The search keeps a trail, the cells that lead to where it stands, and the cells it is done with. What
carries the proof is that nothing it is done with leads into a loop, so that passing such a cell by
loses no cycle (`Search.Explains`).

Main statement: `findCycle?_isLasso`.
-/

set_option autoImplicit false

namespace LessonGrid

open Relation

namespace Grid

/-- An edge leads from a cell to each cell that it depends on. No edge leaves a cell outside the
grid. -/
def Edge (g : Grid) (a b : Address) : Prop :=
  b ∈ g.dependencies a

theorem raw?_isSome_of_edge {g : Grid} {a b : Address} (h : g.Edge a b) :
    (g.raw? a).isSome = true := by
  unfold Edge dependencies at h
  split at h
  · simp at h
  · next text hraw => rw [hraw]; rfl

theorem edge_iff_of_raw? {g : Grid} {a b : Address} {text : String} (h : g.raw? a = some text) :
    g.Edge a b ↔ b ∈ LessonGrid.dependencies text := by
  unfold Edge dependencies
  rw [h]

theorem not_leadsToLoop_of_raw?_none {g : Grid} {a : Address} (h : g.raw? a = none) :
    ¬ LeadsToLoop g.Edge a := by
  intro hloop
  obtain ⟨b, hab, _⟩ := leadsToLoop_iff_exists_step.mp hloop
  have hsome := raw?_isSome_of_edge hab
  rw [h] at hsome
  cases hsome

/-- The step from a cell to the first of its dependencies that leads into a loop. -/
def FirstChoice (g : Grid) (a b : Address) : Prop :=
  LeadsToLoop g.Edge b ∧ ∃ before after, g.dependencies a = before ++ b :: after ∧
    ∀ c ∈ before, ¬ LeadsToLoop g.Edge c

theorem FirstChoice.edge {g : Grid} {a b : Address} (h : g.FirstChoice a b) : g.Edge a b := by
  obtain ⟨_, before, after, hdeps, _⟩ := h
  unfold Edge
  rw [hdeps]
  exact List.mem_append_right before List.mem_cons_self

theorem firstChoice_iff_find? {g : Grid} {a b : Address}
    [DecidablePred (LeadsToLoop g.Edge)] : g.FirstChoice a b ↔
      (g.dependencies a).find? (fun c => decide (LeadsToLoop g.Edge c)) = some b := by
  rw [List.find?_eq_some_iff_append]
  simp [FirstChoice]

/-- A cell has at most one first choice. -/
theorem firstChoice_rightUnique (g : Grid) : Relator.RightUnique g.FirstChoice := by
  classical
  intro a b c hb hc
  have h := (firstChoice_iff_find?.mp hb).symm.trans (firstChoice_iff_find?.mp hc)
  exact Option.some.inj h

end Grid

theorem singleton_eq_append_cons {α : Type} {a b : α} {before after : List α}
    (h : [a] = before ++ b :: after) : before = [] ∧ b = a ∧ after = [] := by
  cases before with
  | nil => simpa [eq_comm] using h
  | cons c before => simp at h

/-! ## What a search comes to -/

/-- What the outcome of a search from some cells says, when the trail has led there: the cells and
everything that is done lead into no loop; or the way found is a lasso that follows the trail, and
from the first of the cells that leads into a loop it makes the first choice everywhere. -/
def Search.Explains (g : Grid) (trail cells : List Address) : Search → Prop
  | .clear done =>
      (∀ a ∈ cells, ¬ LeadsToLoop g.Edge a) ∧ ∀ a ∈ done, ¬ LeadsToLoop g.Edge a
  | .closed way =>
      ∃ before a after tail, cells = before ++ a :: after ∧
        (∀ b ∈ before, ¬ LeadsToLoop g.Edge b) ∧
        way = trail.reverse ++ a :: tail ∧ IsLasso g.Edge way ∧
        (a :: tail).IsChain g.FirstChoice

/-- A trail, with the cell that it leads to in front, is walked against the edges. -/
def Grid.Trail (g : Grid) (trail : List Address) : Prop :=
  trail.IsChain fun b a => g.Edge a b

/-- A trail may go on to each dependency of the cell that it leads to. -/
theorem Grid.Trail.cons_dependency {g : Grid} {trail : List Address} {a b : Address} {text : String}
    (h : g.Trail (a :: trail)) (hraw : g.raw? a = some text)
    (hb : b ∈ LessonGrid.dependencies text) : g.Trail (b :: a :: trail) := by
  have hedge : g.Edge a b := (Grid.edge_iff_of_raw? hraw).mpr hb
  exact h.cons_cons hedge

/-- A cell that is on the trail already closes a lasso. -/
theorem isLasso_of_mem_trail {g : Grid} {trail : List Address} {a : Address}
    (hchain : g.Trail (a :: trail)) (hnodup : trail.Nodup) (ha : a ∈ trail) :
    IsLasso g.Edge (a :: trail).reverse := by
  obtain ⟨lead, loop, htrail⟩ := List.append_of_mem (List.mem_reverse.mpr ha)
  refine ⟨List.isChain_reverse.mpr hchain, ?_, lead, a, loop, ?_⟩
  · rw [List.reverse_cons, List.dropLast_concat]
    exact List.nodup_reverse.mpr hnodup
  · rw [List.reverse_cons, htrail]
    simp

/-- A cell none of whose dependencies leads into a loop is done, too. -/
theorem explains_clear_cons {g : Grid} {trail done : List Address} {a : Address} {text : String}
    (hraw : g.raw? a = some text)
    (h : (Search.clear done).Explains g (a :: trail) (dependencies text)) :
    (Search.clear (a :: done)).Explains g trail [a] := by
  obtain ⟨hdeps, hdone⟩ := h
  have ha : ¬ LeadsToLoop g.Edge a := by
    intro hloop
    obtain ⟨b, hab, hb⟩ := leadsToLoop_iff_exists_step.mp hloop
    exact hdeps b ((Grid.edge_iff_of_raw? hraw).mp hab) hb
  exact ⟨by simpa using ha, List.forall_mem_cons.mpr ⟨ha, hdone⟩⟩

/-- A way found from the dependencies of a cell goes through its first choice. -/
theorem explains_closed_of_dependencies {g : Grid} {trail way : List Address} {a : Address}
    {text : String} (hraw : g.raw? a = some text)
    (h : (Search.closed way).Explains g (a :: trail) (dependencies text)) :
    (Search.closed way).Explains g trail [a] := by
  obtain ⟨before, b, after, tail, hdeps, hbefore, rfl, hlasso, hchoices⟩ := h
  have hb : LeadsToLoop g.Edge b := hlasso.leadsToLoop (by simp)
  have hchoice : g.FirstChoice a b := by
    refine ⟨hb, before, after, ?_, hbefore⟩
    simp only [Grid.dependencies, hraw, hdeps]
  refine ⟨[], a, [], b :: tail, rfl, by simp, by simp, hlasso, ?_⟩
  exact hchoices.cons_cons hchoice

/-- A cell that leads into no loop may stand in front of the cells that are searched. -/
theorem explains_cons {g : Grid} {trail cells : List Address} {a : Address} {outcome : Search}
    (ha : ¬ LeadsToLoop g.Edge a) (h : outcome.Explains g trail cells) :
    outcome.Explains g trail (a :: cells) := by
  cases outcome with
  | clear done => exact ⟨List.forall_mem_cons.mpr ⟨ha, h.1⟩, h.2⟩
  | closed way =>
    obtain ⟨before, b, after, tail, rfl, hbefore, hway⟩ := h
    exact ⟨a :: before, b, after, tail, rfl, List.forall_mem_cons.mpr ⟨ha, hbefore⟩, hway⟩

/-! ## One step of the search -/

theorem searchCell_of_raw?_none {g : Grid} {a : Address} (trail done : List Address)
    (hraw : g.raw? a = none) : searchCell g trail done a = .clear done := by
  unfold searchCell
  split
  · rfl
  · next text h => rw [hraw] at h; cases h

theorem searchCell_of_mem_trail {g : Grid} {trail : List Address} {a : Address} {text : String}
    (done : List Address) (hraw : g.raw? a = some text) (htrail : a ∈ trail) :
    searchCell g trail done a = .closed (a :: trail).reverse := by
  unfold searchCell
  split
  · next h => rw [hraw] at h; cases h
  · rw [dif_pos htrail]

theorem searchCell_of_mem_done {g : Grid} {trail done : List Address} {a : Address}
    (htrail : a ∉ trail) (hdone : a ∈ done) :
    searchCell g trail done a = .clear done := by
  unfold searchCell
  split
  · rfl
  · rw [dif_neg htrail, if_pos hdone]

/-- From a new cell of the grid the search goes on to its dependencies: a way that closes from there
is what is found, and if there is none the search is done with the cell. -/
theorem searchCell_of_new {g : Grid} {trail done : List Address} {a : Address} {text : String}
    (hraw : g.raw? a = some text) (htrail : a ∉ trail) (hdone : a ∉ done) :
    searchCell g trail done a =
      match searchEach g (a :: trail) done (dependencies text) with
      | .closed way => .closed way
      | .clear done' => .clear (a :: done') := by
  conv_lhs => unfold searchCell
  split
  · next hraw' => rw [hraw] at hraw'; cases hraw'
  · next text' hraw' =>
    rw [hraw] at hraw'
    cases hraw'
    exact (dif_neg htrail).trans (if_neg hdone)

/-! ## Whole searches -/

/-- Every search is explained by its outcome, from a trail without repetition and with cells done
that lead into no loop. -/
theorem search_explains (g : Grid) :
    (∀ trail done a, (∀ b ∈ done, ¬ LeadsToLoop g.Edge b) → trail.Nodup → g.Trail (a :: trail) →
      (searchCell g trail done a).Explains g trail [a]) ∧
    (∀ trail done cells, (∀ b ∈ done, ¬ LeadsToLoop g.Edge b) → trail.Nodup →
      (∀ a ∈ cells, g.Trail (a :: trail)) →
      (searchEach g trail done cells).Explains g trail cells) := by
  apply searchCell.mutual_induct g
  case case1 =>
    intro trail done a hraw hdone _ _
    rw [searchCell_of_raw?_none trail done hraw]
    exact ⟨by simpa using Grid.not_leadsToLoop_of_raw?_none hraw, hdone⟩
  case case2 =>
    intro trail done a text hraw htrail _ hnodup hchain
    rw [searchCell_of_mem_trail done hraw htrail]
    refine ⟨[], a, [], [], rfl, by simp, by simp, ?_, .singleton a⟩
    exact isLasso_of_mem_trail hchain hnodup htrail
  case case3 =>
    intro trail done a text _ htrail hmem hdone _ _
    rw [searchCell_of_mem_done htrail hmem]
    exact ⟨by simpa using hdone a hmem, hdone⟩
  case case4 =>
    intro trail done a text hraw htrail hmem _ way heach ih hdone hnodup hchain
    rw [searchCell_of_new hraw htrail hmem, heach]
    rw [heach] at ih
    have hnodup' : (a :: trail).Nodup := List.nodup_cons.mpr ⟨htrail, hnodup⟩
    have hdeps := ih hdone hnodup' fun b hb => hchain.cons_dependency hraw hb
    exact explains_closed_of_dependencies hraw hdeps
  case case5 =>
    intro trail done a text hraw htrail hmem _ done' heach ih hdone hnodup hchain
    rw [searchCell_of_new hraw htrail hmem, heach]
    rw [heach] at ih
    have hnodup' : (a :: trail).Nodup := List.nodup_cons.mpr ⟨htrail, hnodup⟩
    have hdeps := ih hdone hnodup' fun b hb => hchain.cons_dependency hraw hb
    exact explains_clear_cons hraw hdeps
  case case6 =>
    intro trail done hdone _ _
    rw [searchEach]
    exact ⟨by simp, hdone⟩
  case case7 =>
    intro trail done a rest way hcell ih hdone hnodup hchain
    rw [hcell] at ih
    obtain ⟨before, b, after, tail, hsplit, hbefore, hway, hlasso, hchoices⟩ :=
      ih hdone hnodup (hchain a List.mem_cons_self)
    rw [searchEach, hcell]
    obtain ⟨rfl, rfl, rfl⟩ := singleton_eq_append_cons hsplit
    exact ⟨[], b, rest, tail, rfl, hbefore, hway, hlasso, hchoices⟩
  case case8 =>
    intro trail done a rest done' hcell ihcell iheach hdone hnodup hchain
    rw [hcell] at ihcell
    obtain ⟨ha, hdone'⟩ := ihcell hdone hnodup (hchain a List.mem_cons_self)
    have hrest := iheach hdone' hnodup fun b hb => hchain b (List.mem_cons_of_mem a hb)
    rw [searchEach, hcell]
    simp only
    exact explains_cons (ha a List.mem_cons_self) hrest

/-! ## The cycle found from a cell -/

namespace Grid

theorem search_explains_cell (g : Grid) (a : Address) :
    (searchCell g [] [] a).Explains g [] [a] :=
  (search_explains g).1 [] [] a (by simp) List.nodup_nil (.singleton a)

/-- What is found from a cell is the lasso of the first choices from it. -/
theorem findCycle?_isLasso {g : Grid} {a : Address} {way : List Address}
    (h : g.findCycle? a = some way) :
    ∃ tail, way = a :: tail ∧ IsLasso g.Edge way ∧ way.IsChain g.FirstChoice := by
  have hexplains := search_explains_cell g a
  unfold findCycle? at h
  split at h
  · next way' hsearch =>
    cases h
    rw [hsearch] at hexplains
    obtain ⟨before, b, after, tail, hsplit, _, rfl, hlasso, hchoices⟩ := hexplains
    obtain ⟨rfl, rfl, rfl⟩ := singleton_eq_append_cons hsplit
    exact ⟨tail, rfl, hlasso, hchoices⟩
  · cases h

/-- Nothing is found exactly from the cells that lead into no loop. -/
theorem findCycle?_eq_none_iff {g : Grid} {a : Address} :
    g.findCycle? a = none ↔ ¬ LeadsToLoop g.Edge a := by
  constructor
  · intro h
    have hexplains := search_explains_cell g a
    unfold findCycle? at h
    split at h
    · cases h
    · next done hsearch =>
      rw [hsearch] at hexplains
      exact hexplains.1 a List.mem_cons_self
  · intro h
    cases hfound : g.findCycle? a with
    | none => rfl
    | some way =>
      obtain ⟨tail, rfl, hlasso, _⟩ := findCycle?_isLasso hfound
      exact absurd (hlasso.leadsToLoop List.mem_cons_self) h

theorem findCycle?_isSome_iff {g : Grid} {a : Address} :
    (g.findCycle? a).isSome = true ↔ LeadsToLoop g.Edge a := by
  rw [Option.isSome_iff_ne_none, Ne, findCycle?_eq_none_iff, not_not]

/-- Nothing is found from a cell exactly when no cycle of references can be reached from it. What is
found otherwise is a way along the references, from the cell on, through different cells of the grid
up to its last element, which has occurred before, so that the way ends with a cycle. -/
theorem findCycle?_none_iff_no_cycle_reachable (g : Grid) (a : Address) :
    (g.findCycle? a = none ↔ ¬ ∃ b, ReflTransGen g.Edge a b ∧ TransGen g.Edge b b) ∧
    ∀ way, g.findCycle? a = some way →
      way.head? = some a ∧ way.IsChain g.Edge ∧ way.dropLast.Nodup ∧
      (∀ b ∈ way.dropLast, (g.raw? b).isSome = true) ∧
      ∃ lead q loop, way = lead ++ q :: (loop ++ [q]) ∧ (q :: (loop ++ [q])).IsChain g.Edge := by
  refine ⟨findCycle?_eq_none_iff, ?_⟩
  intro way hfound
  obtain ⟨tail, hway, hlasso, _⟩ := findCycle?_isLasso hfound
  refine ⟨by rw [hway, List.head?_cons], hlasso.chain, hlasso.nodup, ?_, ?_⟩
  · intro b hb
    obtain ⟨c, _, hbc⟩ := exists_rel_of_mem_dropLast hlasso.chain hb
    exact raw?_isSome_of_edge hbc
  · obtain ⟨lead, q, loop, hsplit⟩ := hlasso.closes
    have hchain := hlasso.chain
    rw [hsplit] at hchain
    exact ⟨lead, q, loop, hsplit, hchain.right_of_append⟩

end Grid

end LessonGrid
