import LessonGrid.Proofs.Evaluation.Levels
import Mathlib.Data.List.Forall2
import Mathlib.Logic.Relation

/-!
# What a formula reads

A tree reads the cells that it refers to by themselves, and those of its ranges, except for the ranges
of too many cells, which are refused before any cell of theirs is read. Its value rests on nothing
else: where two ways to read the cells are alike, so are the values. Alike may mean equal, or any
other relation between numbers that arithmetic respects.

Main statements: `Tree.evaluate_alike` and `Tree.evaluate_congr`.
-/

set_option autoImplicit false

namespace LessonGrid

open Relation

/-! ## Outcomes that are alike -/

section Alike

variable {α β γ δ : Type} {R : α → β → Prop} {S : γ → δ → Prop}

/-- Two outcomes are alike when they are results that are related, or the same fault. -/
inductive Alike (R : α → β → Prop) : Except Fault α → Except Fault β → Prop
  | ok {x : α} {y : β} (h : R x y) : Alike R (.ok x) (.ok y)
  | error (fault : Fault) : Alike R (.error fault) (.error fault)

theorem alike_eq_iff {x y : Except Fault α} : Alike Eq x y ↔ x = y := by
  constructor
  · rintro (rfl | _) <;> rfl
  · rintro rfl
    cases x with
    | error fault => exact .error fault
    | ok x => exact .ok rfl

theorem Alike.cases {x : Except Fault α} {y : Except Fault β} (h : Alike R x y) :
    (∃ a b, x = .ok a ∧ y = .ok b ∧ R a b) ∨ ∃ fault, x = .error fault ∧ y = .error fault := by
  cases h with
  | ok h => exact .inl ⟨_, _, rfl, rfl, h⟩
  | error fault => exact .inr ⟨fault, rfl, rfl⟩

theorem Alike.map {x : Except Fault α} {y : Except Fault β} {f : α → γ} {g : β → δ}
    (h : Alike R x y) (hfg : ∀ x y, R x y → S (f x) (g y)) : Alike S (x.map f) (y.map g) := by
  cases h with
  | ok h => exact .ok (hfg _ _ h)
  | error fault => exact .error fault

theorem Alike.getD_toOption {x : Except Fault α} {y : Except Fault β} {a : α} {b : β}
    (h : Alike R x y) (hab : R a b) : R (x.toOption.getD a) (y.toOption.getD b) := by
  cases h with
  | ok h => exact h
  | error fault => exact hab

end Alike

/-- A relation between numbers that every computation of formulas respects. -/
structure Arithmetical (R : Float → Float → Prop) : Prop where
  refl (x : Float) : R x x
  finite {x y : Float} : R x y → Alike R (finite x) (finite y)
  neg {x y : Float} : R x y → R (-x) (-y)
  operation (op : Operator) {x x' y y' : Float} : R x x' → R y y' →
    Alike R (op.apply x y) (op.apply x' y')
  reduction (f : Aggregate) {xs ys : List Float} : List.Forall₂ R xs ys →
    Alike R (f.apply xs) (f.apply ys)

theorem arithmetical_eq : Arithmetical Eq where
  refl _ := rfl
  finite h := alike_eq_iff.mpr (congrArg _ h)
  neg h := congrArg _ h
  operation op _ _ _ _ hx hy := alike_eq_iff.mpr (congrArg₂ op.apply hx hy)
  reduction f _ _ h := alike_eq_iff.mpr (congrArg f.apply (List.forall₂_eq_eq_eq ▸ h))

/-! ## Cells that are read -/

/-- The tree refers to the cell by itself, or in a range of no more cells than may be swept. -/
def Tree.Reads (t : Tree) (a : Address) : Prop :=
  .cell a ∈ t.references ∨
    ∃ r, .range r ∈ t.references ∧ r.cells.length ≤ maxSweep ∧ a ∈ r.cells

/-- The text is a formula that can be read, and its tree reads the cell. -/
def Uses (text : String) (a : Address) : Prop :=
  ∃ body t, formulaBody? text = some body ∧ Tree.ofBody body = .ok t ∧ t.Reads a

theorem uses_iff {text : String} {body : List Char} {t : Tree} {a : Address}
    (hbody : formulaBody? text = some body) (htree : Tree.ofBody body = .ok t) :
    Uses text a ↔ t.Reads a := by
  simp [Uses, hbody, htree]

theorem not_uses_of_formulaBody?_none {text : String} (h : formulaBody? text = none)
    (a : Address) : ¬ Uses text a := by
  simp [Uses, h]

/-- The cell holds a formula that reads another cell. -/
def Grid.UsesCell (g : Grid) (a b : Address) : Prop :=
  ∃ raw, g.raw? a = some raw ∧ Uses raw b

/-- The text is a formula that reads the cell, or reads one from which formulas of the grid lead on
to it. These cells are the smallest set that has the cells which the text reads and, with each cell
of its own, those which the formula there reads. -/
def Grid.Reaches (g : Grid) (text : String) (b : Address) : Prop :=
  ∃ a, Uses text a ∧ ReflTransGen g.UsesCell a b

theorem Grid.reaches_of_uses {g : Grid} {text : String} {a : Address} (h : Uses text a) :
    g.Reaches text a :=
  ⟨a, h, .refl⟩

/-- What a formula reaches is reached from wherever the formula is used. -/
theorem Grid.Reaches.through {g : Grid} {text raw : String} {a b : Address} (ha : Uses text a)
    (hraw : g.raw? a = some raw) (hb : g.Reaches raw b) : g.Reaches text b := by
  obtain ⟨c, hc, hcb⟩ := hb
  exact ⟨a, ha, .head ⟨raw, hraw, hc⟩ hcb⟩

/-- Only cells of a set are reached, if the set has what the text reads and is closed. -/
theorem Grid.Reaches.of_closed {g : Grid} {text : String} {cells : List Address} {b : Address}
    (h : g.Reaches text b) (htext : ∀ a, Uses text a → a ∈ cells)
    (hcells : ∀ a ∈ cells, ∀ b, g.UsesCell a b → b ∈ cells) : b ∈ cells := by
  obtain ⟨a, ha, hab⟩ := h
  induction hab with
  | refl => exact htext a ha
  | tail _ hbc ih => exact hcells _ ih _ hbc

namespace Tree

variable {read read' : Address → Except Fault Float} {R : Float → Float → Prop}

@[simp] theorem reads_cell_iff {a b : Address} : (cell b).Reads a ↔ a = b := by
  simp [Reads, references]

@[simp] theorem reads_aggregate_iff {f : Aggregate} {r : Range} {a : Address} :
    (aggregate f r).Reads a ↔ r.cells.length ≤ maxSweep ∧ a ∈ r.cells := by
  simp [Reads, references]

@[simp] theorem reads_negation_iff {t : Tree} {a : Address} : (negation t).Reads a ↔ t.Reads a :=
  Iff.rfl

@[simp] theorem reads_binary_iff {op : Operator} {left right : Tree} {a : Address} :
    (binary op left right).Reads a ↔ left.Reads a ∨ right.Reads a := by
  simp only [Reads, references, List.mem_append, or_and_right, exists_or]
  exact or_or_or_comm

/-! ## The value rests on what is read -/

/-- A range is refused either way, or swept with numbers that are related one by one. -/
theorem sweep_alike {r : Range} (hzero : R 0 0)
    (h : r.cells.length ≤ maxSweep → ∀ a ∈ r.cells, Alike R (read a) (read' a)) :
    Alike (List.Forall₂ R) (sweep read r) (sweep read' r) := by
  unfold sweep
  split
  · exact .error _
  · next hswept =>
    refine .ok ?_
    rw [List.forall₂_map_left_iff, List.forall₂_map_right_iff, List.forall₂_same]
    intro a ha
    exact (h (Range.refusal?_eq_none_iff.mp hswept) a ha).getD_toOption hzero

/-- Where the cells that a tree reads are alike, its values are alike. -/
theorem evaluate_alike (hR : Arithmetical R) {t : Tree}
    (h : ∀ a, t.Reads a → Alike R (read a) (read' a)) :
    Alike R (t.evaluate read) (t.evaluate read') := by
  induction t with
  | number x => exact hR.finite (hR.refl x)
  | cell a => exact h a (reads_cell_iff.mpr rfl)
  | aggregate f r =>
    have hsweep := sweep_alike (hR.refl 0) fun hr a ha => h a (reads_aggregate_iff.mpr ⟨hr, ha⟩)
    rcases hsweep.cases with ⟨xs, ys, hxs, hys, hvalues⟩ | ⟨fault, hxs, hys⟩
    · rcases (hR.reduction f hvalues).cases with ⟨x, y, hx, hy, hnumbers⟩ | ⟨fault, hx, hy⟩
      · simp only [evaluate, hxs, hys, hx, hy]
        exact hR.finite hnumbers
      · simp only [evaluate, hxs, hys, hx, hy]
        exact .error fault
    · simp only [evaluate, hxs, hys]
      exact .error fault
  | negation t ih =>
    have hoperand := ih fun a ha => h a (reads_negation_iff.mpr ha)
    rcases hoperand.cases with ⟨x, y, hx, hy, hxy⟩ | ⟨fault, hx, hy⟩
    · simp only [evaluate, hx, hy]
      exact .ok (hR.neg hxy)
    · simp only [evaluate, hx, hy]
      exact .error fault
  | binary op left right ihleft ihright =>
    have hleft := ihleft fun a ha => h a (reads_binary_iff.mpr (.inl ha))
    have hright := ihright fun a ha => h a (reads_binary_iff.mpr (.inr ha))
    rcases hleft.cases with ⟨x, x', hx, hx', hxx⟩ | ⟨fault, hx, hx'⟩
    · rcases hright.cases with ⟨y, y', hy, hy', hyy⟩ | ⟨fault, hy, hy'⟩
      · simp only [evaluate, hx, hx', hy, hy']
        exact hR.operation op hxx hyy
      · simp only [evaluate, hx, hx', hy, hy']
        exact .error fault
    · simp only [evaluate, hx, hx']
      exact .error fault

/-- Where the cells that a tree reads have the same outcomes, it has the same value. -/
theorem evaluate_congr {t : Tree} (h : ∀ a, t.Reads a → read a = read' a) :
    t.evaluate read = t.evaluate read' :=
  alike_eq_iff.mp (evaluate_alike arithmetical_eq fun a ha => alike_eq_iff.mpr (h a ha))

end Tree

end LessonGrid
