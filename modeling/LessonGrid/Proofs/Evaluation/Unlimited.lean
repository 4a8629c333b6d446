import Mathlib
import LessonGrid.Proofs.Evaluation.Reads

/-!
# Evaluation without a lowest level

What formulas mean when they are followed as deep as they go: a relation between a text and its
outcome, which is the only one. A formula on a loop has no outcome there, unless a fault to the left
of the loop comes first.

Where no chain of formulas that read each other is longer than the levels left, the lowest level is
never met, and evaluation comes to the outcome without it. This includes chains through ranges, in
which a cell below the lowest level would count as zero without any fault to show for it.

Main statements: `Means.unique` and `evaluate_eq_iff_means`.
-/

set_option autoImplicit false

namespace LessonGrid

namespace Grid

/-- The outcome of a tree, whatever the number of levels below it. -/
inductive TreeMeans (g : Grid) : Tree → Except Fault Float → Prop
  | number (x : Float) : TreeMeans g (.number x) (finite x)
  /-- A cell outside the grid is empty. -/
  | outside {a : Address} (hraw : g.raw? a = none) : TreeMeans g (.cell a) (.ok 0)
  | literal {a : Address} {raw : String} (hraw : g.raw? a = some raw)
      (htext : formulaBody? raw = none) : TreeMeans g (.cell a) (.ok (Content.ofText raw).amount)
  | unreadable {a : Address} {raw : String} {body : List Char} {fault : Fault}
      (hraw : g.raw? a = some raw) (hbody : formulaBody? raw = some body)
      (htree : Tree.ofBody body = .error fault) : TreeMeans g (.cell a) (.error fault)
  | formula {a : Address} {raw : String} {body : List Char} {t : Tree} {outcome : Except Fault Float}
      (hraw : g.raw? a = some raw) (hbody : formulaBody? raw = some body)
      (htree : Tree.ofBody body = .ok t) (h : TreeMeans g t outcome) :
      TreeMeans g (.cell a) outcome
  | refused {f : Aggregate} {r : Range} (hsize : maxSweep < r.cells.length) (hword : ¬ r.LeavesWords) :
      TreeMeans g (.aggregate f r) (.error (.rangeTooLarge r))
  /-- No formula can name such a range. -/
  | stopped {f : Aggregate} {r : Range} (hsize : maxSweep < r.cells.length) (hword : r.LeavesWords) :
      TreeMeans g (.aggregate f r) (.error .overflow)
  /-- A cell of a range that is at fault counts as zero. -/
  | swept {f : Aggregate} {r : Range} {outcome : Address → Except Fault Float}
      (hsize : r.cells.length ≤ maxSweep) (h : ∀ a ∈ r.cells, TreeMeans g (.cell a) (outcome a)) :
      TreeMeans g (.aggregate f r)
        ((f.apply (r.cells.map fun a => (outcome a).toOption.getD 0)).bind finite)
  | negation {t : Tree} {outcome : Except Fault Float} (h : TreeMeans g t outcome) :
      TreeMeans g (.negation t) (outcome.map fun x => -x)
  /-- A fault to the left is met first, whatever stands to the right. -/
  | leftFault {op : Operator} {left right : Tree} {fault : Fault}
      (hleft : TreeMeans g left (.error fault)) : TreeMeans g (.binary op left right) (.error fault)
  | rightFault {op : Operator} {left right : Tree} {x : Float} {fault : Fault}
      (hleft : TreeMeans g left (.ok x)) (hright : TreeMeans g right (.error fault)) :
      TreeMeans g (.binary op left right) (.error fault)
  | operation {op : Operator} {left right : Tree} {x y : Float} (hleft : TreeMeans g left (.ok x))
      (hright : TreeMeans g right (.ok y)) : TreeMeans g (.binary op left right) (op.apply x y)

/-- The outcome of a text, whatever the number of levels below it. -/
inductive Means (g : Grid) (text : String) : Except Fault Value → Prop
  | literal (htext : formulaBody? text = none) : Means g text (.ok (.ofLiteral text))
  | unreadable {body : List Char} {fault : Fault} (hbody : formulaBody? text = some body)
      (htree : Tree.ofBody body = .error fault) : Means g text (.error fault)
  | formula {body : List Char} {t : Tree} {outcome : Except Fault Float}
      (hbody : formulaBody? text = some body) (htree : Tree.ofBody body = .ok t)
      (h : g.TreeMeans t outcome) : Means g text (outcome.map .number)

/-! ## There is one outcome at most -/

theorem TreeMeans.unique {g : Grid} {t : Tree} {outcome outcome' : Except Fault Float}
    (h : g.TreeMeans t outcome) (h' : g.TreeMeans t outcome') : outcome = outcome' := by
  induction h generalizing outcome' with
  | number x => cases h'; rfl
  | outside hraw => cases h' <;> simp_all
  | literal hraw htext => cases h' <;> simp_all
  | unreadable hraw hbody htree => cases h' <;> simp_all
  | formula hraw hbody htree _ ih =>
    cases h' with
    | outside hraw' => simp_all
    | literal hraw' htext' => simp_all
    | unreadable hraw' hbody' htree' => simp_all
    | formula hraw' hbody' htree' h' =>
      cases hraw.symm.trans hraw'
      cases hbody.symm.trans hbody'
      cases htree.symm.trans htree'
      exact ih h'
  | refused hsize hword =>
    cases h' with
    | refused => rfl
    | stopped _ hword' => exact absurd hword' hword
    | swept hsize' => exact absurd hsize (Nat.not_lt_of_le hsize')
  | stopped hsize hword =>
    cases h' with
    | refused _ hword' => exact absurd hword hword'
    | stopped => rfl
    | swept hsize' => exact absurd hsize (Nat.not_lt_of_le hsize')
  | swept hsize _ ih =>
    cases h' with
    | refused hsize' => exact absurd hsize' (Nat.not_lt_of_le hsize)
    | stopped hsize' => exact absurd hsize' (Nat.not_lt_of_le hsize)
    | swept hsize' h' =>
      congr 2
      refine List.map_congr_left ?_
      intro a ha
      rw [ih a ha (h' a ha)]
  | negation _ ih =>
    cases h' with
    | negation h' => rw [ih h']
  | leftFault _ ih =>
    cases h' with
    | leftFault hleft' => exact ih hleft'
    | rightFault hleft' => cases ih hleft'
    | operation hleft' => cases ih hleft'
  | rightFault _ _ ihleft ihright =>
    cases h' with
    | leftFault hleft' => cases ihleft hleft'
    | rightFault hleft' hright' => exact ihright hright'
    | operation hleft' hright' => cases ihright hright'
  | operation _ _ ihleft ihright =>
    cases h' with
    | leftFault hleft' => cases ihleft hleft'
    | rightFault hleft' hright' => cases ihright hright'
    | operation hleft' hright' =>
      cases ihleft hleft'
      cases ihright hright'
      rfl

theorem Means.unique {g : Grid} {text : String} {outcome outcome' : Except Fault Value}
    (h : g.Means text outcome) (h' : g.Means text outcome') : outcome = outcome' := by
  cases h with
  | literal htext => cases h' <;> simp_all
  | unreadable hbody htree => cases h' <;> simp_all
  | formula hbody htree h =>
    cases h' with
    | literal htext' => simp_all
    | unreadable hbody' htree' => simp_all
    | formula hbody' htree' h' =>
      cases hbody.symm.trans hbody'
      cases htree.symm.trans htree'
      rw [h.unique h']

/-! ## The outcome is found on the levels that there are -/

/-- A tree whose cells are read as they mean is evaluated as it means. -/
theorem treeMeans_evaluate {g : Grid} {read : Address → Except Fault Float} {t : Tree}
    (h : ∀ a, t.Reads a → g.TreeMeans (.cell a) (read a)) : g.TreeMeans t (t.evaluate read) := by
  induction t with
  | number x => exact .number x
  | cell a => exact h a (Tree.reads_cell_iff.mpr rfl)
  | aggregate f r =>
    by_cases hsize : r.cells.length ≤ maxSweep
    · have hswept : g.TreeMeans (.aggregate f r)
          ((f.apply (r.cells.map fun a => (read a).toOption.getD 0)).bind finite) :=
        .swept hsize fun a ha => h a (Tree.reads_aggregate_iff.mpr ⟨hsize, ha⟩)
      simp only [Tree.evaluate, sweep_of_length_le hsize]
      cases hreduced : f.apply (r.cells.map fun a => (read a).toOption.getD 0) <;>
        rw [hreduced] at hswept <;> exact hswept
    · have hlarge : maxSweep < r.cells.length := Nat.lt_of_not_le hsize
      simp only [Tree.evaluate, sweep, r.refusal?_eq, hsize, if_false]
      by_cases hword : r.LeavesWords
      · simpa [hword] using TreeMeans.stopped hlarge hword
      · simpa [hword] using TreeMeans.refused hlarge hword
  | negation t ih =>
    have ht := (ih fun a ha => h a (Tree.reads_negation_iff.mpr ha)).negation
    unfold Tree.evaluate
    cases heval : t.evaluate read <;> rw [heval] at ht <;> exact ht
  | binary op left right ihleft ihright =>
    have hleft := ihleft fun a ha => h a (Tree.reads_binary_iff.mpr (.inl ha))
    have hright := ihright fun a ha => h a (Tree.reads_binary_iff.mpr (.inr ha))
    unfold Tree.evaluate
    cases hx : left.evaluate read with
    | error fault => exact .leftFault (hx ▸ hleft)
    | ok x =>
      cases hy : right.evaluate read with
      | error fault => exact .rightFault (hx ▸ hleft) (hy ▸ hright)
      | ok y => exact .operation (hx ▸ hleft) (hy ▸ hright)

/-- A cell that holds a formula means the number of the formula. -/
theorem Means.treeMeans_cell {g : Grid} {a : Address} {raw : String} {outcome : Except Fault Value}
    (hraw : g.raw? a = some raw) (hformula : IsFormula raw) (h : g.Means raw outcome) :
    g.TreeMeans (.cell a) (outcome.map Value.amount) := by
  cases h with
  | literal htext => exact absurd hformula (not_isFormula_iff.mpr htext)
  | unreadable hbody htree => exact .unreadable hraw hbody htree
  | @formula _ _ outcome hbody htree h =>
    have hamount : (outcome.map Value.number).map Value.amount = outcome := by
      cases outcome <;> rfl
    rw [hamount]
    exact .formula hraw hbody htree h

/-- The cells lead down from a text through formulas: the text is a formula that reads the first of
them, by itself or in a range, and each of them is in the grid and holds a formula that reads the
next one. A range that is refused leads nowhere. -/
def LeadsThrough (g : Grid) : String → List Address → Prop
  | _, [] => True
  | text, a :: cells =>
    Uses text a ∧ ∃ raw, g.raw? a = some raw ∧ IsFormula raw ∧ g.LeadsThrough raw cells

/-- No chain of formulas that leads down from the text has more cells than the given number. -/
def Shallow (g : Grid) (text : String) (n : Nat) : Prop :=
  ∀ cells, g.LeadsThrough text cells → cells.length ≤ n

/-- From a formula in a cell that the text reads, chains are shorter by one cell at least. -/
theorem Shallow.of_uses {g : Grid} {text raw : String} {a : Address} {n : Nat}
    (h : g.Shallow text n) (ha : Uses text a) (hraw : g.raw? a = some raw)
    (hformula : IsFormula raw) : ∃ m, n = m + 1 ∧ g.Shallow raw m := by
  have hcons : ∀ cells, g.LeadsThrough raw cells → cells.length + 1 ≤ n := by
    intro cells hcells
    exact h (a :: cells) ⟨ha, raw, hraw, hformula, hcells⟩
  have hone : 1 ≤ n := hcons [] trivial
  refine ⟨n - 1, by omega, ?_⟩
  intro cells hcells
  have hlength := hcons cells hcells
  omega

/-- Where chains have fewer cells than there are levels, a text has the value that it means. -/
theorem means_valueWithin {g : Grid} {text : String} {n levels : Nat} (h : g.Shallow text n)
    (hlevels : n < levels) : g.Means text (g.valueWithin levels text) := by
  induction levels generalizing text n with
  | zero => omega
  | succ levels ih =>
    cases hbody : formulaBody? text with
    | none =>
      have hliteral : ¬ IsFormula text := not_isFormula_iff.mpr hbody
      rw [valueWithin_of_not_isFormula hliteral]
      exact .literal hbody
    | some body =>
      cases htree : Tree.ofBody body with
      | error fault =>
        rw [valueWithin_succ_of_error hbody htree]
        exact .unreadable hbody htree
      | ok t =>
        rw [valueWithin_succ_of_ok hbody htree]
        refine .formula hbody htree (treeMeans_evaluate ?_)
        intro a ha
        cases hraw : g.raw? a with
        | none =>
          have hread : g.readWith (g.valueWithin levels) a = .ok 0 := by
            simp only [readWith, hraw]
          rw [hread]
          exact .outside hraw
        | some raw =>
          by_cases hformula : IsFormula raw
          · obtain ⟨m, rfl, hraws⟩ := h.of_uses ⟨body, t, hbody, htree, ha⟩ hraw hformula
            rw [readWith_of_isFormula hraw hformula]
            exact (ih hraws (Nat.lt_of_succ_lt_succ hlevels)).treeMeans_cell hraw hformula
          · rw [readWith_of_not_isFormula hraw hformula]
            exact .literal hraw (not_isFormula_iff.mp hformula)

/-- Where no chain of formulas that leads down from a text has more cells than there are levels below
its own, the text has just the value that it means without a lowest level, and it has the same value
on every level above. -/
theorem evaluate_eq_iff_means (g : Grid) (text : String) (level : Nat) (hlevel : level ≤ maxLevel)
    (hshallow : ∀ cells, g.LeadsThrough text cells → cells.length ≤ maxLevel - level) :
    (∀ outcome, g.evaluate text level = outcome ↔ g.Means text outcome) ∧
    ∀ upper ≤ level, g.evaluate text level = g.evaluate text upper := by
  have hmeans : ∀ upper ≤ level, g.Means text (g.evaluate text upper) := by
    intro upper hupper
    refine means_valueWithin hshallow ?_
    unfold levelsFrom
    omega
  refine ⟨?_, ?_⟩
  · intro outcome
    constructor
    · rintro rfl
      exact hmeans level (Nat.le_refl level)
    · exact (hmeans level (Nat.le_refl level)).unique
  · intro upper hupper
    exact (hmeans level (Nat.le_refl level)).unique (hmeans upper hupper)

/-- A sum of two numbers in a range. -/
def sumOfTwoNumbers : Grid :=
  ⟨[⟨"=SUM(B1:C1)", "2", "3", "", ""⟩]⟩

/-- A formula on the last level but one that refers to the sum: the sum is met on the last level, and
no formula below it. -/
theorem evaluate_on_last_levels :
    9 ≤ maxLevel ∧
    (∀ cells, sumOfTwoNumbers.LeadsThrough "=A1" cells → cells.length ≤ maxLevel - 9) ∧
    sumOfTwoNumbers.Means "=A1" (sumOfTwoNumbers.evaluate "=A1" 9) ∧
    sumOfTwoNumbers.evaluate "=A1" 9 = sumOfTwoNumbers.evaluate "=A1" 0 := by
  have htop : ∀ a, Uses "=A1" a → a = ⟨0, 0⟩ := by
    intro a ha
    have htree : Tree.ofBody "A1".toList = .ok (.cell ⟨0, 0⟩) := by cbv
    exact Tree.reads_cell_iff.mp ((uses_iff rfl htree).mp ha)
  have hsum : ∀ a, Uses "=SUM(B1:C1)" a → a ∈ [(⟨1, 0⟩ : Address), ⟨2, 0⟩] := by
    intro a ha
    have htree : Tree.ofBody "SUM(B1:C1)".toList = .ok (.aggregate .sum ⟨⟨1, 0⟩, ⟨2, 0⟩⟩) := by cbv
    have hcells : (Range.mk ⟨1, 0⟩ ⟨2, 0⟩).cells = [⟨1, 0⟩, ⟨2, 0⟩] := by cbv
    exact hcells ▸ (Tree.reads_aggregate_iff.mp ((uses_iff rfl htree).mp ha)).2
  have hnumbers : ∀ a ∈ [(⟨1, 0⟩ : Address), ⟨2, 0⟩], ∀ raw, sumOfTwoNumbers.raw? a = some raw →
      ¬ IsFormula raw := by
    intro a ha raw hraw
    rcases List.mem_pair.mp ha with rfl | rfl <;> cases hraw
    · exact not_isFormula_iff.mpr rfl
    · exact not_isFormula_iff.mpr rfl
  have hshallow : ∀ cells, sumOfTwoNumbers.LeadsThrough "=A1" cells →
      cells.length ≤ maxLevel - 9 := by
    intro cells hcells
    rcases cells with _ | ⟨a, _ | ⟨b, _⟩⟩
    · exact Nat.zero_le _
    · exact Nat.le_refl 1
    · obtain ⟨ha, raw, hraw, _, hb, raw', hraw', hformula, _⟩ := hcells
      cases htop a ha
      cases hraw
      exact absurd hformula (hnumbers b (hsum b hb) raw' hraw')
  have h := evaluate_eq_iff_means sumOfTwoNumbers "=A1" 9 (by decide) hshallow
  exact ⟨by decide, hshallow, (h.1 _).mp rfl, h.2 0 (Nat.zero_le 9)⟩

end Grid

end LessonGrid
