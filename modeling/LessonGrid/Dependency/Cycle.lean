import LessonGrid.Dependency.Basic

/-!
# Cycles of references

A search along the dependencies of a cell, each cell's in their order and depth first, for a way
that comes back to a cell it has passed. `Grid.findCycle?` gives the way up to and including the
first cell that it meets again. The search ends because every step down adds a cell of the grid to
the trail that was not on it.

Main statement: `mem_addresses_of_raw?` (a cell with a text is among the grid's addresses).
-/

set_option autoImplicit false

namespace LessonGrid

namespace Grid

/-- Every cell with a text is among the addresses of the grid. -/
theorem mem_addresses_of_raw? {g : Grid} {a : Address} {text : String}
    (h : g.raw? a = some text) : a ∈ g.addresses := by
  simp only [raw?, Option.bind_eq_bind, Option.bind_eq_some_iff] at h
  obtain ⟨col, hcol, row, hrow, -⟩ := h
  have hlt : a.row.toNat < g.rows.length := (List.getElem?_eq_some_iff.mp hrow).1
  have hindex : col.index = a.col.toNat := Column.ofIndex?_eq_some_iff.mp hcol
  simp only [addresses, List.mem_flatMap, List.mem_range, List.mem_map]
  refine ⟨a.row.toNat, hlt, col, Column.mem_all col, ?_⟩
  cases a with
  | mk acol arow =>
    simp only [Address.ofColumn, Address.mk.injEq]
    constructor
    · simp only at hindex
      rw [hindex]
      exact UInt64.ofNat_toNat
    · exact UInt64.ofNat_toNat

/-- The cells of the grid that are not on a trail. -/
def offTrail (g : Grid) (trail : List Address) : List Address :=
  g.addresses.filter fun a => a ∉ trail

/-- A step to a cell of the grid leaves fewer cells off the trail. -/
theorem length_offTrail_cons_lt {g : Grid} {a : Address} {trail : List Address} {text : String}
    (hraw : g.raw? a = some text) (htrail : a ∉ trail) :
    (g.offTrail (a :: trail)).length < (g.offTrail trail).length := by
  have hsub : g.offTrail (a :: trail) = (g.offTrail trail).filter fun b => b ≠ a := by
    simp only [offTrail, List.filter_filter]
    congr 1
    funext b
    by_cases hb : b = a <;> simp [hb, htrail]
  rw [hsub]
  refine List.length_filter_lt_length_iff_exists.mpr ⟨a, ?_, by simp⟩
  exact List.mem_filter.mpr ⟨mem_addresses_of_raw? hraw, by simpa using htrail⟩

end Grid

/-- What a search from one or more cells comes to: a way that closes, from its first cell on, or the
cells from which it is known that no way closes. -/
inductive Search where
  | closed (way : List Address)
  | clear (done : List Address)
  deriving DecidableEq, Repr, Inhabited

mutual

/-- Searches from a cell. The trail holds the cells that lead to it, the latest one first. -/
def searchCell (g : Grid) (trail done : List Address) (a : Address) : Search :=
  match hraw : g.raw? a with
  | none => .clear done
  | some text =>
    if htrail : a ∈ trail then .closed (a :: trail).reverse
    else if a ∈ done then .clear done
    else
      have := Grid.length_offTrail_cons_lt hraw htrail
      match searchEach g (a :: trail) done (dependencies text) with
      | .closed way => .closed way
      | .clear done => .clear (a :: done)
termination_by ((g.offTrail trail).length, 0)

/-- Searches from some cells one after the other, up to the first way that closes. -/
def searchEach (g : Grid) (trail done : List Address) : List Address → Search
  | [] => .clear done
  | a :: rest =>
    match searchCell g trail done a with
    | .closed way => .closed way
    | .clear done => searchEach g trail done rest
termination_by cells => ((g.offTrail trail).length, cells.length + 1)

end

namespace Grid

/-- The way along the dependencies of a cell to the first cell that it meets again, which ends it; or
nothing, when no such way exists. -/
def findCycle? (g : Grid) (a : Address) : Option (List Address) :=
  match searchCell g [] [] a with
  | .closed way => some way
  | .clear _ => none

/-- Whether the way found from a cell comes back to the cell itself, or to a later one that leads to
it once more. -/
def closesThrough (g : Grid) (a : Address) : Bool :=
  match g.findCycle? a with
  | none => false
  | some way => (way.dropWhile fun b => some b ≠ way.getLast?).contains a

/-- The cells of the grid that lie on the cycle found from them, row by row. -/
def circularCells (g : Grid) : List Address :=
  g.addresses.filter g.closesThrough

end Grid

end LessonGrid
