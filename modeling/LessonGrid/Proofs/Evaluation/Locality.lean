import Mathlib
import LessonGrid.Exercise.Basic
import LessonGrid.Proofs.Evaluation.Levels
import LessonGrid.Proofs.Evaluation.SignedZero

/-!
# What the value of a formula rests on

A formula has the same value in two grids which agree at the cells that it reaches: at each of them
both grids hold the same formula, or neither holds a formula and both give the same number. What
stands elsewhere makes no difference, and of a text that is no formula only its number counts. So
blank rows below a lesson and blank cells in place of texts change no value.

Main statement: `evaluate_determined_by_reached_cells`.
-/

set_option autoImplicit false

namespace LessonGrid

/-- Two values are related when they are related numbers, or the same text. -/
inductive Value.Related (R : Float → Float → Prop) : Value → Value → Prop
  | number {x y : Float} (h : R x y) : Related R (.number x) (.number y)
  | text (s : String) : Related R (.text s) (.text s)

namespace Value

variable {R : Float → Float → Prop} {v w : Value}

theorem related_refl (hR : ∀ x, R x x) (v : Value) : v.Related R v := by
  cases v with
  | number x => exact .number (hR x)
  | text s => exact .text s

theorem Related.eq (h : v.Related Eq w) : v = w := by
  cases h with
  | number h => rw [h]
  | text s => rfl

theorem Related.amount (hR : ∀ x, R x x) (h : v.Related R w) : R v.amount w.amount := by
  cases h with
  | number h => exact h
  | text s => exact hR 0

end Value

/-- Outcomes that differ at most in the sign of a zero are shown in the same way. -/
theorem resultText_eq_of_alike {x y : Except Fault Value}
    (h : Alike (Value.Related SameNumber) x y) (places : Nat) :
    resultText x places = resultText y places := by
  cases h with
  | ok h =>
    cases h with
    | number h => exact h.numberText_eq places
    | text s => rfl
  | error fault => rfl

/-! ## Blank texts -/

theorem formulaBody?_of_isBlankText {text : String} (h : isBlankText text.toList = true) :
    formulaBody? text = none := by
  unfold formulaBody?
  split
  · next body htext =>
    -- The equals sign is no blank.
    rw [htext, isBlankText, List.all_cons, Bool.and_eq_true] at h
    exact absurd h.1 (by decide)
  · rfl

theorem amount_ofText_of_isBlankText {text : String} (h : isBlankText text.toList = true) :
    (Content.ofText text).amount = 0 := by
  simp only [Content.ofText, formulaBody?_of_isBlankText h, h, if_true, Content.amount]

namespace Grid

variable {R : Float → Float → Prop} {g h : Grid} {a : Address}

/-! ## Grids that agree at a cell -/

/-- There is a formula in the cell. -/
def HoldsFormula (g : Grid) (a : Address) : Prop :=
  ∃ raw, g.raw? a = some raw ∧ IsFormula raw

/-- The number that a cell without a formula stands for in arithmetic: zero for a cell that is blank
or outside the grid, and for a text that is no number. -/
def literalAmount (g : Grid) (a : Address) : Float :=
  match g.raw? a with
  | none => 0
  | some raw => (Content.ofText raw).amount

/-- Two grids agree at a cell when both hold the same formula there, or neither holds a formula and
the two numbers of the cell are related. -/
inductive AgreesAt (R : Float → Float → Prop) (g h : Grid) (a : Address) : Prop
  | formula {raw : String} (hformula : IsFormula raw) (hg : g.raw? a = some raw)
      (hh : h.raw? a = some raw)
  | literal (hg : ¬ g.HoldsFormula a) (hh : ¬ h.HoldsFormula a)
      (hamount : R (g.literalAmount a) (h.literalAmount a))

theorem not_holdsFormula {raw : String} (hraw : g.raw? a = some raw) (hliteral : ¬ IsFormula raw) :
    ¬ g.HoldsFormula a := by
  rintro ⟨raw', hraw', hformula⟩
  cases hraw.symm.trans hraw'
  exact hliteral hformula

theorem literalAmount_of_raw? {raw : String} (hraw : g.raw? a = some raw) :
    g.literalAmount a = (Content.ofText raw).amount := by
  simp only [literalAmount, hraw]

theorem readWith_of_not_holdsFormula {value : String → Except Fault Value}
    (hg : ¬ g.HoldsFormula a) : g.readWith value a = .ok (g.literalAmount a) := by
  cases hraw : g.raw? a with
  | none => simp only [readWith, literalAmount, hraw]
  | some raw =>
    have hliteral : ¬ IsFormula raw := fun hformula => hg ⟨raw, hraw, hformula⟩
    rw [readWith_of_not_isFormula hraw hliteral, literalAmount_of_raw? hraw]

theorem agreesAt_of_literals {raw raw' : String} (hg : g.raw? a = some raw)
    (hh : h.raw? a = some raw') (hraw : ¬ IsFormula raw) (hraw' : ¬ IsFormula raw')
    (hamount : R (Content.ofText raw).amount (Content.ofText raw').amount) : AgreesAt R g h a := by
  refine .literal (not_holdsFormula hg hraw) (not_holdsFormula hh hraw') ?_
  rwa [literalAmount_of_raw? hg, literalAmount_of_raw? hh]

theorem agreesAt_of_raw?_eq (hR : ∀ x, R x x) (heq : g.raw? a = h.raw? a) : AgreesAt R g h a := by
  by_cases hg : g.HoldsFormula a
  · obtain ⟨raw, hraw, hformula⟩ := hg
    exact .formula hformula hraw (heq ▸ hraw)
  · have hh : ¬ h.HoldsFormula a := by rwa [HoldsFormula, ← heq]
    have hamount : g.literalAmount a = h.literalAmount a := by rw [literalAmount, heq, literalAmount]
    exact .literal hg hh (hamount ▸ hR _)

/-- The cell holds no formula and stands for zero. -/
def CountsAsZero (g : Grid) (a : Address) : Prop :=
  ¬ g.HoldsFormula a ∧ g.literalAmount a = 0

theorem countsAsZero_of_raw?_none (hraw : g.raw? a = none) : g.CountsAsZero a := by
  refine ⟨?_, ?_⟩
  · rintro ⟨raw, hraw', _⟩
    cases hraw.symm.trans hraw'
  · simp only [literalAmount, hraw]

theorem countsAsZero_of_not_isFormula {raw : String} (hraw : g.raw? a = some raw)
    (hliteral : ¬ IsFormula raw) (hamount : (Content.ofText raw).amount = 0) :
    g.CountsAsZero a :=
  ⟨not_holdsFormula hraw hliteral, (literalAmount_of_raw? hraw).trans hamount⟩

theorem countsAsZero_of_isBlankText {raw : String} (hraw : g.raw? a = some raw)
    (hblank : isBlankText raw.toList = true) : g.CountsAsZero a := by
  have hliteral : ¬ IsFormula raw :=
    not_isFormula_iff.mpr (formulaBody?_of_isBlankText hblank)
  exact countsAsZero_of_not_isFormula hraw hliteral (amount_ofText_of_isBlankText hblank)

theorem countsAsZero_of_ofText_eq_text {raw : String} (hraw : g.raw? a = some raw)
    (htext : Content.ofText raw = .text raw) : g.CountsAsZero a := by
  have hliteral : ¬ IsFormula raw := by
    intro hformula
    cases htext.symm.trans (Content.ofText_of_isFormula hformula)
  exact countsAsZero_of_not_isFormula hraw hliteral (by simp [htext, Content.amount])

theorem agreesAt_of_countsAsZero (hg : g.CountsAsZero a) (hh : h.CountsAsZero a) :
    AgreesAt Eq g h a :=
  .literal hg.1 hh.1 (hg.2.trans hh.2.symm)

/-! ## Formulas in two grids -/

/-- Where two grids agree at the cells that a text reaches, its values are alike in both. -/
theorem valueWithin_alike (hR : Arithmetical R) {levels : Nat} {text : String}
    (hagree : ∀ b, g.Reaches text b → AgreesAt R g h b) :
    Alike (Value.Related R) (g.valueWithin levels text) (h.valueWithin levels text) := by
  induction levels generalizing text with
  | zero =>
    by_cases hformula : IsFormula text
    · rw [valueWithin_zero hformula, valueWithin_zero hformula]
      exact .error _
    · rw [valueWithin_of_not_isFormula hformula, valueWithin_of_not_isFormula hformula]
      exact .ok (Value.related_refl hR.refl _)
  | succ levels ih =>
    cases hbody : formulaBody? text with
    | none =>
      have hliteral : ¬ IsFormula text := not_isFormula_iff.mpr hbody
      rw [valueWithin_of_not_isFormula hliteral, valueWithin_of_not_isFormula hliteral]
      exact .ok (Value.related_refl hR.refl _)
    | some body =>
      cases htree : Tree.ofBody body with
      | error fault =>
        rw [valueWithin_succ_of_error hbody htree, valueWithin_succ_of_error hbody htree]
        exact .error fault
      | ok t =>
        rw [valueWithin_succ_of_ok hbody htree, valueWithin_succ_of_ok hbody htree]
        refine (Tree.evaluate_alike hR ?_).map fun _ _ hxy => .number hxy
        intro b hb
        have huses : Uses text b := ⟨body, t, hbody, htree, hb⟩
        cases hagree b (reaches_of_uses huses) with
        | @formula raw hformula hg hh =>
          rw [readWith_of_isFormula hg hformula, readWith_of_isFormula hh hformula]
          have hraw := ih fun c hc => hagree c (hc.through huses hg)
          exact hraw.map fun _ _ hvw => hvw.amount hR.refl
        | literal hg hh hamount =>
          rw [readWith_of_not_holdsFormula hg, readWith_of_not_holdsFormula hh]
          exact .ok hamount

theorem evaluate_eq_of_agreesAt {text : String} (level : Nat)
    (hagree : ∀ b, g.Reaches text b → AgreesAt Eq g h b) :
    g.evaluate text level = h.evaluate text level := by
  rcases (valueWithin_alike arithmetical_eq hagree).cases with ⟨v, w, hv, hw, hvw⟩ | ⟨_, hx, hy⟩
  · exact hv.trans (hvw.eq ▸ hw.symm)
  · exact hx.trans hy.symm

/-- A grid agrees everywhere with the grid that has blank rows below it. -/
theorem agreesAt_append {blanks : List Row} (hblanks : ∀ row ∈ blanks, row.isBlank = true)
    (a : Address) : AgreesAt Eq g ⟨g.rows ++ blanks⟩ a := by
  cases hcol : a.column? with
  | none =>
    refine agreesAt_of_raw?_eq (fun _ => rfl) ?_
    simp [raw?, hcol]
  | some col =>
    by_cases hrow : a.row.toNat < g.rows.length
    · refine agreesAt_of_raw?_eq (fun _ => rfl) ?_
      simp [raw?, hcol, List.getElem?_append_left hrow]
    · have hout : g.raw? a = none := by
        simp [raw?, hcol, List.getElem?_eq_none (Nat.le_of_not_lt hrow)]
      refine agreesAt_of_countsAsZero (countsAsZero_of_raw?_none hout) ?_
      have hright : (g.rows ++ blanks)[a.row.toNat]? = blanks[a.row.toNat - g.rows.length]? :=
        List.getElem?_append_right (Nat.le_of_not_lt hrow)
      cases hblank : blanks[a.row.toNat - g.rows.length]? with
      | none =>
        refine countsAsZero_of_raw?_none ?_
        simp [raw?, hcol, hright, hblank]
      | some row =>
        have hbelow : (mk (g.rows ++ blanks)).raw? a = some (row.get col) := by
          simp [raw?, hcol, hright, hblank]
        exact countsAsZero_of_isBlankText hbelow
          (Row.isBlankText_get (hblanks row (List.mem_of_getElem? hblank)) col)

/-- A grid agrees everywhere with the grid that has blank text in place of a text that is no number. -/
theorem agreesAt_set {raw text : String} (hraw : g.raw? a = some raw)
    (htext : Content.ofText raw = .text raw) (hblank : isBlankText text.toList = true)
    (b : Address) : AgreesAt Eq g (g.set a text) b := by
  by_cases hba : b = a
  · subst hba
    have hset : (g.set b text).raw? b = some text := by simp [raw?_set, hraw]
    exact agreesAt_of_countsAsZero (countsAsZero_of_ofText_eq_text hraw htext)
      (countsAsZero_of_isBlankText hset hblank)
  · refine agreesAt_of_raw?_eq (fun _ => rfl) ?_
    rw [raw?_set, if_neg hba]

/-- A formula has the same outcome, faults and their wording included, in all grids that agree at the
cells which it reaches, and it is enough for the outcomes to be shown in the same way that the
numbers there differ at most in the sign of a zero. Blank rows below the grid, as an exercise adds
them to a lesson, and blank cells in place of texts make no difference. -/
theorem evaluate_determined_by_reached_cells (g : Grid) (text : String) (level : Nat) :
    (∀ h : Grid, (∀ a, g.Reaches text a → AgreesAt Eq g h a) →
      g.evaluate text level = h.evaluate text level) ∧
    (∀ h : Grid, (∀ a, g.Reaches text a → AgreesAt SameNumber g h a) →
      Alike (Value.Related SameNumber) (g.evaluate text level) (h.evaluate text level) ∧
      ∀ places, resultText (g.evaluate text level) places =
        resultText (h.evaluate text level) places) ∧
    (∀ blanks : List Row, (∀ row ∈ blanks, row.isBlank = true) →
      (mk (g.rows ++ blanks)).evaluate text level = g.evaluate text level) ∧
    (g.rows.length ≤ exerciseRows →
      (Exercise.ofRows g.rows).grid.evaluate text level = g.evaluate text level) ∧
    (∀ a raw blank, g.raw? a = some raw → Content.ofText raw = .text raw →
      isBlankText blank.toList = true →
      (g.set a blank).evaluate text level = g.evaluate text level) := by
  have hpad : ∀ blanks : List Row, (∀ row ∈ blanks, row.isBlank = true) →
      (mk (g.rows ++ blanks)).evaluate text level = g.evaluate text level := by
    intro blanks hblanks
    exact (evaluate_eq_of_agreesAt level fun a _ => agreesAt_append hblanks a).symm
  refine ⟨fun h hagree => evaluate_eq_of_agreesAt level hagree, ?_, hpad, ?_, ?_⟩
  · intro h hagree
    have halike : Alike (Value.Related SameNumber) (g.evaluate text level) (h.evaluate text level) :=
      valueWithin_alike arithmetical_sameNumber hagree
    exact ⟨halike, resultText_eq_of_alike halike⟩
  · intro hrows
    have hgrid : (Exercise.ofRows g.rows).grid =
        mk (g.rows ++ List.replicate (exerciseRows - g.rows.length) Row.empty) := by
      simp only [Exercise.ofRows, Exercise.fill, List.take_of_length_le hrows]
    rw [hgrid]
    refine hpad _ ?_
    intro row hrow
    rw [List.eq_of_mem_replicate hrow, Row.isBlank_empty]
  · intro a raw blank hraw htext hblank
    exact (evaluate_eq_of_agreesAt level fun b _ => agreesAt_set hraw htext hblank b).symm

/-- A lesson whose first cell adds up a number, a text and a negative zero; nothing reads the last
cell. -/
def lessonWithNote : Grid :=
  ⟨[⟨"=SUM(B1:D1)", " 5 ", "note", "-0", "7"⟩]⟩

/-- The lesson with its number spelled otherwise, no text, a zero as given, and a formula that refers
to itself in the cell that nothing reads. -/
def lessonRetyped (zero : String) : Grid :=
  ⟨[⟨"=SUM(B1:D1)", "5.0", "", zero, "=E1"⟩]⟩

theorem mem_of_reaches_lessonWithNote {a : Address} (h : lessonWithNote.Reaches "=A1" a) :
    a ∈ [(⟨0, 0⟩ : Address), ⟨1, 0⟩, ⟨2, 0⟩, ⟨3, 0⟩] := by
  have hcell : ∀ b, Uses "=A1" b → b = ⟨0, 0⟩ := by
    intro b hb
    have htree : Tree.ofBody "A1".toList = .ok (.cell ⟨0, 0⟩) := by cbv
    exact Tree.reads_cell_iff.mp ((uses_iff rfl htree).mp hb)
  have hrange : ∀ b, Uses "=SUM(B1:D1)" b → b ∈ [(⟨1, 0⟩ : Address), ⟨2, 0⟩, ⟨3, 0⟩] := by
    intro b hb
    have htree : Tree.ofBody "SUM(B1:D1)".toList = .ok (.aggregate .sum ⟨⟨1, 0⟩, ⟨3, 0⟩⟩) := by
      cbv
    have hcells : (Range.mk ⟨1, 0⟩ ⟨3, 0⟩).cells = [⟨1, 0⟩, ⟨2, 0⟩, ⟨3, 0⟩] := by cbv
    exact hcells ▸ (Tree.reads_aggregate_iff.mp ((uses_iff rfl htree).mp hb)).2
  refine h.of_closed (fun b hb => hcell b hb ▸ List.mem_cons_self) ?_
  rintro b hb c ⟨raw, hraw, hc⟩
  simp only [List.mem_cons, List.not_mem_nil, or_false] at hb
  rcases hb with rfl | rfl | rfl | rfl <;> cases hraw
  · exact List.mem_cons_of_mem _ (hrange c hc)
  · exact absurd hc (not_uses_of_formulaBody?_none rfl c)
  · exact absurd hc (not_uses_of_formulaBody?_none rfl c)
  · exact absurd hc (not_uses_of_formulaBody?_none rfl c)

theorem agreesAt_lessonRetyped (hR : ∀ x, R x x) {zero : String} (hzero : ¬ IsFormula zero)
    (hamount : R (Content.ofText "-0").amount (Content.ofText zero).amount)
    (ha : lessonWithNote.Reaches "=A1" a) : AgreesAt R lessonWithNote (lessonRetyped zero) a := by
  have hfive : (Content.ofText " 5 ").amount = (Content.ofText "5.0").amount := rfl
  have hnote : (Content.ofText "note").amount = (Content.ofText "").amount := rfl
  have hmem := mem_of_reaches_lessonWithNote ha
  simp only [List.mem_cons, List.not_mem_nil, or_false] at hmem
  rcases hmem with rfl | rfl | rfl | rfl
  · have hformula : IsFormula "=SUM(B1:D1)" := rfl
    exact .formula hformula rfl rfl
  · have hraw' : (lessonRetyped zero).raw? ⟨1, 0⟩ = some "5.0" := rfl
    exact agreesAt_of_literals rfl hraw' (not_isFormula_iff.mpr rfl) (not_isFormula_iff.mpr rfl)
      (hfive ▸ hR _)
  · exact agreesAt_of_literals rfl rfl (not_isFormula_iff.mpr rfl) (not_isFormula_iff.mpr rfl)
      (hnote ▸ hR _)
  · exact agreesAt_of_literals rfl rfl (not_isFormula_iff.mpr rfl) hzero hamount

/-- The sum in the lesson is the same when it is retyped, and is shown alike even when the zero loses
its sign. -/
theorem evaluate_lessonWithNote :
    lessonWithNote.evaluate "=A1" 0 = (lessonRetyped "-0").evaluate "=A1" 0 ∧
    (∀ places, resultText (lessonWithNote.evaluate "=A1" 0) places =
      resultText ((lessonRetyped "0").evaluate "=A1" 0) places) ∧
    (mk (lessonWithNote.rows ++ [Row.empty])).evaluate "=A1" 0 =
      lessonWithNote.evaluate "=A1" 0 ∧
    (Exercise.ofRows lessonWithNote.rows).grid.evaluate "=A1" 0 =
      lessonWithNote.evaluate "=A1" 0 ∧
    (lessonWithNote.set ⟨2, 0⟩ " ").evaluate "=A1" 0 = lessonWithNote.evaluate "=A1" 0 := by
  have hzeros : SameNumber (Content.ofText "-0").amount (Content.ofText "0").amount :=
    .inr ⟨rfl, rfl⟩
  obtain ⟨hequal, hsame, hpad, hexercise, hblank⟩ :=
    evaluate_determined_by_reached_cells lessonWithNote "=A1" 0
  refine ⟨hequal _ ?_, (hsame _ ?_).2, hpad _ ?_, hexercise ?_, hblank ⟨2, 0⟩ "note" " " rfl rfl rfl⟩
  · intro a ha
    exact agreesAt_lessonRetyped (fun _ => rfl) (not_isFormula_iff.mpr rfl) rfl ha
  · intro a ha
    exact agreesAt_lessonRetyped SameNumber.refl (not_isFormula_iff.mpr rfl) hzeros ha
  · simp
  · decide

end Grid

end LessonGrid
