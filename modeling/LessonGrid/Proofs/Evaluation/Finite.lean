import Mathlib
import LessonGrid.Evaluation.Display
import LessonGrid.Proofs.Decimal.Finite
import LessonGrid.Proofs.Evaluation.Levels

/-!
# Only finite numbers

Every number that comes out of an evaluation is finite. Literals are, since a text that is too large is
no number; what is computed is looked at before it goes on; and what goes on unseen, a cell's number to
the formula that refers to it and an operand to its negation, stays finite. So no cell ever shows that a
formula came to infinity or to no number at all.

Main statement: `evaluate_only_finite`.
-/

set_option autoImplicit false

namespace LessonGrid

/-! ## Literals -/

theorem isFinite_zero : (0 : Float).isFinite = true := by
  rfl

theorem isFinite_of_finiteNumber? {text : String} {x : Float} (h : finiteNumber? text = some x) :
    x.isFinite = true := by
  unfold finiteNumber? at h
  simp only at h
  split at h
  · cases h
  · next d _ =>
    split at h
    · next hnearest =>
      injection h with h
      rw [← h]
      split
      · exact isFinite_neg hnearest
      · exact hnearest
    · cases h

theorem Content.isFinite_amount_ofText (raw : String) :
    (Content.ofText raw).amount.isFinite = true := by
  unfold ofText
  split
  · exact isFinite_zero
  · split
    · exact isFinite_zero
    · split
      · next x hx => exact isFinite_of_finiteNumber? hx
      · exact isFinite_zero

/-- The number of a value is finite, if it is a number. -/
def Value.IsFinite (v : Value) : Prop :=
  v.amount.isFinite = true

theorem Value.isFinite_ofLiteral (text : String) : (Value.ofLiteral text).IsFinite := by
  unfold ofLiteral
  split
  · next x hx => exact isFinite_of_finiteNumber? hx
  · exact isFinite_zero

/-! ## Trees -/

/-- What is read of a cell is finite, if there is no fault. -/
def ReadsFinite (read : Address → Except Fault Float) : Prop :=
  ∀ a x, read a = .ok x → x.isFinite = true

variable {read : Address → Except Fault Float}

/-- A fault counts as zero in a sweep, so whatever the cells come to the values are finite. -/
theorem isFinite_of_mem_sweep (hread : ReadsFinite read) {r : Range} {xs : List Float}
    (h : sweep read r = .ok xs) : ∀ x ∈ xs, x.isFinite = true := by
  obtain ⟨_, rfl⟩ := sweep_eq_ok_iff.mp h
  intro x hx
  obtain ⟨a, _, rfl⟩ := List.mem_map.mp hx
  cases hcell : read a with
  | error fault => exact isFinite_zero
  | ok y => exact hread a y hcell

/-- A tree over finite cells comes to a finite number. Every node looks at its result, but for a
negation and a cell. -/
theorem Tree.isFinite_of_evaluate (hread : ReadsFinite read) {t : Tree} {x : Float}
    (h : t.evaluate read = .ok x) : x.isFinite = true := by
  induction t generalizing x with
  | number y =>
    have hy : finite y = .ok x := h
    exact isFinite_of_finite hy
  | cell a => exact hread a x h
  | aggregate f r =>
    unfold evaluate at h
    split at h
    · cases h
    · split at h
      · cases h
      · exact isFinite_of_finite h
  | negation t ih =>
    unfold evaluate at h
    split at h
    · cases h
    · next y hy =>
      cases h
      exact isFinite_neg (ih hy)
  | binary op left right =>
    unfold evaluate at h
    split at h
    · cases h
    · split at h
      · cases h
      · exact Operator.isFinite_of_apply h

/-! ## Cells and levels -/

namespace Grid

variable {g : Grid}

theorem readsFinite_readWith {value : String → Except Fault Value}
    (hvalue : ∀ text v, value text = .ok v → v.IsFinite) : ReadsFinite (g.readWith value) := by
  intro a x h
  cases hraw : g.raw? a with
  | none =>
    simp only [readWith, hraw] at h
    cases h
    exact isFinite_zero
  | some raw =>
    by_cases hformula : IsFormula raw
    · rw [readWith_of_isFormula hraw hformula] at h
      cases hv : value raw with
      | error fault => rw [hv] at h; cases h
      | ok v =>
        rw [hv] at h
        cases h
        exact hvalue raw v hv
    · rw [readWith_of_not_isFormula hraw hformula] at h
      cases h
      exact Content.isFinite_amount_ofText raw

/-- A formula that has a value is read and has levels left, and its tree comes to that value over the
level below. -/
theorem exists_tree_of_valueWithin {levels : Nat} {text : String} {v : Value}
    (hformula : IsFormula text) (h : g.valueWithin levels text = .ok v) :
    ∃ lower t x, levels = lower + 1 ∧ v = .number x ∧
      Tree.evaluate (g.readWith (g.valueWithin lower)) t = .ok x := by
  obtain ⟨body, hbody⟩ := Option.isSome_iff_exists.mp hformula
  cases levels with
  | zero =>
    rw [valueWithin_zero hformula] at h
    cases h
  | succ lower =>
    cases htree : Tree.ofBody body with
    | error fault =>
      rw [valueWithin_succ_of_error hbody htree] at h
      cases h
    | ok t =>
      rw [valueWithin_succ_of_ok hbody htree] at h
      cases hx : t.evaluate (g.readWith (g.valueWithin lower)) with
      | error fault => rw [hx] at h; cases h
      | ok x =>
        rw [hx] at h
        cases h
        exact ⟨lower, t, x, rfl, rfl, hx⟩

/-- By induction on the levels: a tree on one level reads cells of the level below. -/
theorem isFinite_of_valueWithin (levels : Nat) :
    ∀ text v, g.valueWithin levels text = .ok v → v.IsFinite := by
  induction levels using Nat.strongRecOn with
  | ind levels ih =>
    intro text v h
    by_cases hformula : IsFormula text
    · obtain ⟨lower, t, x, rfl, rfl, hx⟩ := exists_tree_of_valueWithin hformula h
      exact Tree.isFinite_of_evaluate (readsFinite_readWith (ih lower (Nat.lt_succ_self lower))) hx
    · rw [valueWithin_of_not_isFormula hformula] at h
      cases h
      exact Value.isFinite_ofLiteral text

theorem readsFinite_resolve (g : Grid) (level : Nat) : ReadsFinite (g.resolve · level) :=
  readsFinite_readWith (isFinite_of_valueWithin _)

end Grid

/-! ## What is shown -/

/-- The first character is a digit. -/
def StartsWithDigit (cs : List Char) : Prop :=
  ∃ c, cs.head? = some c ∧ c.isDigit = true

theorem startsWithDigit_digits (n : Nat) : StartsWithDigit (Numeral.digits n) := by
  cases hdigits : Numeral.digits n with
  | nil => exact absurd hdigits (Numeral.digits_ne_nil n)
  | cons c cs =>
    have hmem : c ∈ Numeral.digits n := by
      rw [hdigits]
      exact List.mem_cons_self
    exact ⟨c, rfl, Numeral.isDigit_of_mem_digits hmem⟩

theorem startsWithDigit_fixedText (places count : Nat) : StartsWithDigit (fixedText places count) := by
  unfold fixedText
  split
  · exact startsWithDigit_digits count
  · obtain ⟨c, hhead, hdigit⟩ := startsWithDigit_digits (count / Nat.pow 10 places)
    exact ⟨c, by rw [List.head?_append, hhead]; rfl, hdigit⟩

/-- The first character is a digit or a minus. -/
def StartsLikeNumber (cs : List Char) : Prop :=
  ∃ c, cs.head? = some c ∧ (c.isDigit = true ∨ c = '-')

theorem StartsWithDigit.startsLikeNumber {cs : List Char} (h : StartsWithDigit cs) :
    StartsLikeNumber cs := by
  obtain ⟨c, hhead, hdigit⟩ := h
  exact ⟨c, hhead, .inl hdigit⟩

theorem startsLikeNumber_shown (d : Dyadic) (places : Nat) : StartsLikeNumber (d.shown places) := by
  unfold Dyadic.shown
  simp only
  split
  · exact ⟨'0', rfl, .inl (by decide)⟩
  · split
    · exact ⟨'-', rfl, .inr rfl⟩
    · apply StartsWithDigit.startsLikeNumber
      split
      · split
        · exact startsWithDigit_digits _
        · exact startsWithDigit_fixedText _ _
      · exact startsWithDigit_fixedText _ _

theorem numberText_ne_overflow {x : Float} (h : x.isFinite = true) (places : Nat) :
    numberText x places ≠ "#NAN!" ∧ numberText x places ≠ "#INF!" := by
  obtain ⟨d, hd⟩ := isFinite_iff_exists_dyadic.mp h
  obtain ⟨c, hhead, hc⟩ := startsLikeNumber_shown d places
  have htext : (numberText x places).toList.head? = some c := by
    simp only [numberText, hd, String.toList_ofList, hhead]
  have hmark : ∀ text : String, numberText x places = text → text.toList.head? ≠ some '#' := by
    rintro _ rfl hmark
    rw [htext] at hmark
    cases hmark
    revert hc
    decide
  exact ⟨fun heq => hmark _ heq (by decide), fun heq => hmark _ heq (by decide)⟩

theorem code_ne_overflow (fault : Fault) : fault.code ≠ "#NAN!" ∧ fault.code ≠ "#INF!" := by
  unfold Fault.code
  cases fault.kind <;> decide

/-- Every number that an evaluation gives is finite, whatever the text, the grid and the level: the
value of a text, the number of a cell that a formula refers to, each number of a swept range, and the
number of a tree. So what a formula comes to is never shown as infinite or as no number. -/
theorem evaluate_only_finite (g : Grid) (level : Nat) :
    (∀ text x, g.evaluate text level = .ok (.number x) → x.isFinite = true) ∧
    (∀ a x, g.resolve a level = .ok x → x.isFinite = true) ∧
    (∀ r xs, g.expand r level = .ok xs → ∀ x ∈ xs, x.isFinite = true) ∧
    (∀ (t : Tree) x, t.evaluate (g.resolve · level) = .ok x → x.isFinite = true) ∧
    (∀ text places, IsFormula text →
      resultText (g.evaluate text level) places ≠ "#NAN!" ∧
      resultText (g.evaluate text level) places ≠ "#INF!") := by
  have hvalue : ∀ text x, g.evaluate text level = .ok (.number x) → x.isFinite = true :=
    fun text x h => Grid.isFinite_of_valueWithin (Grid.levelsFrom level) text (.number x) h
  have hresolve : ReadsFinite (g.resolve · level) := g.readsFinite_resolve level
  refine ⟨hvalue, hresolve, fun r xs => isFinite_of_mem_sweep hresolve,
    fun t x => Tree.isFinite_of_evaluate hresolve, ?_⟩
  intro text places hformula
  cases hresult : g.evaluate text level with
  | error fault =>
    simp only [resultText]
    exact code_ne_overflow fault
  | ok v =>
    obtain ⟨_, _, x, _, rfl, _⟩ := Grid.exists_tree_of_valueWithin hformula hresult
    simp only [resultText]
    exact numberText_ne_overflow (hvalue text x hresult) places

end LessonGrid
