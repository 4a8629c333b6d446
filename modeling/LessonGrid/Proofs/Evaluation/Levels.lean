import LessonGrid.Proofs.Evaluation.Limit
import LessonGrid.Proofs.Formula.Named

/-!
# Evaluation level by level

How a fault comes up through a formula. A tree has the fault of a cell that it refers to by itself, of
a range that is not swept, or one of its own arithmetic, and any fault of such a cell keeps the tree from
having a value. The equations after that say what a text comes to on each level, so that what follows
need not open the evaluation again. As the ranges of a formula can be counted and have a text, no
evaluation stops the program.

Main statements: `evaluate_error_cases`, `evaluate_error_of_mem_references`, `readWith_eq_error_iff` and
`evaluate_ne_overflow`.
-/

set_option autoImplicit false

namespace LessonGrid

/-- The text starts with an equals sign. -/
def IsFormula (text : String) : Prop :=
  (formulaBody? text).isSome = true

theorem not_isFormula_iff {text : String} : ¬ IsFormula text ↔ formulaBody? text = none := by
  simp [IsFormula]

/-- The text is a formula that can be read and that refers to the cell by itself, and not only in a
range. -/
def Names (text : String) (a : Address) : Prop :=
  ∃ body t, formulaBody? text = some body ∧ Tree.ofBody body = .ok t ∧ .cell a ∈ t.references

theorem Names.isFormula {text : String} {a : Address} (h : Names text a) : IsFormula text := by
  obtain ⟨body, _, hbody, _⟩ := h
  simp [IsFormula, hbody]

/-! ## Faults of arithmetic -/

theorem kind_of_finite_error {x : Float} {fault : Fault} (h : finite x = .error fault) :
    fault.kind = .evaluation := by
  unfold finite at h
  split at h
  · cases h
  · cases h; rfl

theorem Operator.kind_of_apply_error {op : Operator} {x y : Float} {fault : Fault}
    (h : op.apply x y = .error fault) : fault.kind = .evaluation := by
  cases op with
  | add => exact kind_of_finite_error h
  | sub => exact kind_of_finite_error h
  | mul => exact kind_of_finite_error h
  | div =>
    simp only [apply] at h
    split at h
    · cases h; rfl
    · exact kind_of_finite_error h

theorem Aggregate.kind_of_apply_error {f : Aggregate} {xs : List Float} {fault : Fault}
    (h : f.apply xs = .error fault) : fault.kind = .evaluation := by
  unfold apply at h
  split at h
  · cases h
  · cases h; rfl

/-! ## Faults of trees -/

namespace Tree

variable {read : Address → Except Fault Float} {t : Tree} {fault : Fault}

/-- The fault of a tree is the fault of a cell that it refers to by itself, that of a range which is not
swept, or one of arithmetic: the faults of the cells of a range are lost in the sweep. -/
theorem evaluate_error_cases (h : t.evaluate read = .error fault) :
    (∃ a, .cell a ∈ t.references ∧ read a = .error fault) ∨
      (∃ r, .range r ∈ t.references ∧ r.refusal? = some fault) ∨ fault.kind = .evaluation := by
  induction t with
  | number x => exact .inr (.inr (kind_of_finite_error h))
  | cell a => exact .inl ⟨a, List.mem_singleton_self _, h⟩
  | aggregate f r =>
    unfold evaluate at h
    split at h
    · next fault' hsweep =>
      cases h
      exact .inr (.inl ⟨r, List.mem_singleton_self _, sweep_eq_error_iff.mp hsweep⟩)
    · split at h
      · next fault' happly => cases h; exact .inr (.inr (Aggregate.kind_of_apply_error happly))
      · exact .inr (.inr (kind_of_finite_error h))
  | negation t ih =>
    unfold evaluate at h
    split at h
    · next fault' ht => cases h; exact ih ht
    · cases h
  | binary op left right ihleft ihright =>
    unfold evaluate at h
    split at h
    · next fault' hleft =>
      cases h
      rcases ihleft hleft with ⟨a, ha, hread⟩ | ⟨r, hr, hrefusal⟩ | hkind
      · exact .inl ⟨a, List.mem_append_left _ ha, hread⟩
      · exact .inr (.inl ⟨r, List.mem_append_left _ hr, hrefusal⟩)
      · exact .inr (.inr hkind)
    · split at h
      · next fault' hright =>
        cases h
        rcases ihright hright with ⟨a, ha, hread⟩ | ⟨r, hr, hrefusal⟩ | hkind
        · exact .inl ⟨a, List.mem_append_right _ ha, hread⟩
        · exact .inr (.inl ⟨r, List.mem_append_right _ hr, hrefusal⟩)
        · exact .inr (.inr hkind)
      · exact .inr (.inr (Operator.kind_of_apply_error h))

/-- A fault of a cell that a tree refers to by itself keeps the tree from having a value. The fault
of the tree may be another one, further to the left. -/
theorem evaluate_error_of_mem_references {a : Address} (ha : .cell a ∈ t.references)
    (hread : read a = .error fault) : ∃ fault', t.evaluate read = .error fault' := by
  induction t with
  | number x => simp [references] at ha
  | cell b =>
    have hab : a = b := by simpa [references] using ha
    exact ⟨fault, hab ▸ hread⟩
  | aggregate f r => simp [references] at ha
  | negation t ih =>
    obtain ⟨fault', ht⟩ := ih ha
    exact ⟨fault', by simp only [evaluate, ht]⟩
  | binary op left right ihleft ihright =>
    unfold evaluate
    cases hleft : left.evaluate read with
    | error fault' => exact ⟨fault', rfl⟩
    | ok x =>
      rcases List.mem_append.mp ha with ha | ha
      · obtain ⟨fault', hfault⟩ := ihleft ha
        rw [hleft] at hfault
        cases hfault
      · obtain ⟨fault', hright⟩ := ihright ha
        exact ⟨fault', by simp only [hright]⟩

end Tree

/-! ## Cells and levels -/

theorem Content.ofText_of_isFormula {raw : String} (h : IsFormula raw) :
    Content.ofText raw = .formula raw := by
  obtain ⟨body, hbody⟩ := Option.isSome_iff_exists.mp h
  simp only [ofText, hbody]

theorem Content.ofText_ne_formula {raw : String} (h : ¬ IsFormula raw) (text : String) :
    Content.ofText raw ≠ .formula text := by
  have hbody : formulaBody? raw = none := not_isFormula_iff.mp h
  unfold ofText
  rw [hbody]
  simp only
  split
  · simp
  · split <;> simp

namespace Grid

variable {g : Grid} {value : String → Except Fault Value} {a : Address} {text raw : String}
  {levels : Nat} {fault : Fault}

theorem readWith_of_isFormula (hraw : g.raw? a = some raw) (h : IsFormula raw) :
    g.readWith value a = (value raw).map Value.amount := by
  simp only [readWith, hraw, Content.ofText_of_isFormula h]

theorem readWith_of_not_isFormula (hraw : g.raw? a = some raw) (h : ¬ IsFormula raw) :
    g.readWith value a = .ok (Content.ofText raw).amount := by
  simp only [readWith, hraw]
  split
  · next text htext => exact absurd htext (Content.ofText_ne_formula h text)
  · rfl

/-- Only a formula in a cell of the grid has a fault. -/
theorem readWith_eq_error_iff : g.readWith value a = .error fault ↔
    ∃ raw, g.raw? a = some raw ∧ IsFormula raw ∧ value raw = .error fault := by
  cases hraw : g.raw? a with
  | none => simp [readWith, hraw]
  | some raw =>
    by_cases h : IsFormula raw
    · rw [readWith_of_isFormula hraw h]
      cases hvalue : value raw <;> simp [Except.map, h, hvalue]
    · rw [readWith_of_not_isFormula hraw h]
      simp [h]

theorem valueWithin_zero (h : IsFormula text) : g.valueWithin 0 text = .error .circular := by
  obtain ⟨body, hbody⟩ := Option.isSome_iff_exists.mp h
  rw [valueWithin, hbody]

theorem valueWithin_of_not_isFormula (h : ¬ IsFormula text) :
    g.valueWithin levels text = .ok (.ofLiteral text) := by
  have hbody : formulaBody? text = none := not_isFormula_iff.mp h
  cases levels <;> rw [valueWithin, hbody]

/-- Only a formula has a fault. -/
theorem isFormula_of_valueWithin_error (h : g.valueWithin levels text = .error fault) :
    IsFormula text := by
  by_cases hformula : IsFormula text
  · exact hformula
  · rw [valueWithin_of_not_isFormula hformula] at h
    cases h

theorem valueWithin_succ_of_error {body : List Char} (hbody : formulaBody? text = some body)
    (h : Tree.ofBody body = .error fault) : g.valueWithin (levels + 1) text = .error fault := by
  rw [valueWithin, hbody]
  simp only [h]

theorem valueWithin_succ_of_ok {body : List Char} {t : Tree}
    (hbody : formulaBody? text = some body) (h : Tree.ofBody body = .ok t) :
    g.valueWithin (levels + 1) text =
      (t.evaluate (g.readWith (g.valueWithin levels))).map .number := by
  rw [valueWithin, hbody]
  simp only [h]

end Grid

/-! ## The program does not stop -/

/-- A range whose last cell a formula can name stops nothing. -/
theorem Range.refusal?_ne_overflow {r : Range} (hlast : r.last.Nameable) :
    r.refusal? ≠ some .overflow := by
  have hcol := hlast.1
  have hrow := hlast.2
  have hword : ¬ r.LeavesWords := by
    rintro (hspan | hend)
    · rcases (spansAllWords_iff.mp hspan).2 with ⟨_, hend⟩ | ⟨_, hend⟩
      · omega
      · rw [hend, UInt64.size] at hcol
        omega
    · omega
  rw [refusal?_eq, if_neg hword]
  split <;> simp

/-- A tree whose references a formula can name comes to no stop of its own. -/
theorem Tree.evaluate_ne_overflow {read : Address → Except Fault Float} {t : Tree}
    (ht : ∀ ref ∈ t.references, ref.Nameable)
    (hread : ∀ a, .cell a ∈ t.references → read a ≠ .error .overflow) :
    t.evaluate read ≠ .error .overflow := by
  intro h
  rcases evaluate_error_cases h with ⟨a, ha, hfault⟩ | ⟨r, hr, hrefusal⟩ | hkind
  · exact hread a ha hfault
  · exact Range.refusal?_ne_overflow (ht _ hr).2 hrefusal
  · cases hkind

namespace Grid

variable {g : Grid}

theorem valueWithin_ne_overflow (levels : Nat) (text : String) :
    g.valueWithin levels text ≠ .error .overflow := by
  induction levels generalizing text with
  | zero =>
    by_cases hformula : IsFormula text
    · simp [valueWithin_zero hformula]
    · simp [valueWithin_of_not_isFormula hformula]
  | succ levels ih =>
    cases hbody : formulaBody? text with
    | none => simp [valueWithin_of_not_isFormula (not_isFormula_iff.mpr hbody)]
    | some body =>
      cases htree : Tree.ofBody body with
      | error fault =>
        rw [valueWithin_succ_of_error hbody htree]
        rintro ⟨⟩
        rcases kind_of_ofBody_error htree with hkind | hkind <;> cases hkind
      | ok t =>
        have htree' : t.evaluate (g.readWith (g.valueWithin levels)) ≠ .error .overflow := by
          refine Tree.evaluate_ne_overflow (nameable_of_ofBody htree) fun a _ hread => ?_
          obtain ⟨raw, _, _, hvalue⟩ := readWith_eq_error_iff.mp hread
          exact ih raw hvalue
        rw [valueWithin_succ_of_ok hbody htree]
        cases hvalue : t.evaluate (g.readWith (g.valueWithin levels)) with
        | error fault =>
          rintro ⟨⟩
          exact htree' hvalue
        | ok x => rintro ⟨⟩

/-- No text stops the program when it is evaluated, in whatever grid. -/
theorem evaluate_ne_overflow (g : Grid) (text : String) (level : Nat) :
    g.evaluate text level ≠ .error .overflow :=
  valueWithin_ne_overflow _ _

/-- No cell stops the program when a formula refers to it. -/
theorem resolve_ne_overflow (g : Grid) (a : Address) (level : Nat) :
    g.resolve a level ≠ .error .overflow := by
  intro h
  obtain ⟨raw, _, _, hvalue⟩ := readWith_eq_error_iff.mp h
  exact valueWithin_ne_overflow _ _ hvalue

end Grid

end LessonGrid
