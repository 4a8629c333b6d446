import Mathlib
import LessonGrid.Proofs.Exercise.Reload

/-!
# Sessions of work on an exercise

A session does one thing after the other to an exercise: it edits and empties cells, switches between
formulas and values, sets the places shown, and saves. What a single action does is said once, as a
transition (`Step`): it writes one cell, changes one setting, puts the lesson into its file and counts the
exercise as saved, or is refused and changes nothing. What a whole session comes to follows by induction
on its log. The exercise is then
a table of twenty times five texts, each the last one put into its cell.

Main statement: `session_refines_cells`.
-/

set_option autoImplicit false

namespace LessonGrid

/-- The address names a cell of an exercise. -/
def Address.InExercise (a : Address) : Prop :=
  a.col.toNat < 5 ∧ a.row.toNat < exerciseRows

namespace Exercise

theorem raw?_isSome_iff (ex : Exercise) (a : Address) :
    (ex.raw? a).isSome = true ↔ a.InExercise := by
  have hcol : a.column?.isSome = true ↔ a.col.toNat < 5 := Column.ofIndex?_isSome_iff
  rw [Address.InExercise, ← hcol, ← ex.length_rows]
  cases hcolumn : a.column? with
  | none => simp [raw?, Grid.raw?, hcolumn]
  | some col =>
    by_cases hlt : a.row.toNat < ex.grid.rows.length <;> simp [raw?, Grid.raw?, hcolumn, hlt]

theorem raw?_eq_none_iff (ex : Exercise) (a : Address) : ex.raw? a = none ↔ ¬ a.InExercise := by
  rw [← ex.raw?_isSome_iff, Option.not_isSome_iff_eq_none]

/-- Whether an edit is made depends on its cell only, not on what is in the exercise. -/
theorem edit_of_inExercise {a : Address} (h : a.InExercise) (ex : Exercise) (text : String) :
    ex.edit a text = .ok (ex.write a text, (ex.write a text).grid.findCycle? a) := by
  obtain ⟨old, hraw⟩ := Option.isSome_iff_exists.mp ((ex.raw?_isSome_iff a).mpr h)
  exact edit_of_raw? hraw text

theorem edit_of_not_inExercise {a : Address} (h : ¬ a.InExercise) (ex : Exercise) (text : String) :
    ex.edit a text = .error (.outsideGrid a) := by
  simp only [edit, (ex.raw?_eq_none_iff a).mpr h]

/-- An exercise as a session starts with: without content, of the rows of a lesson, or loaded. -/
inductive Fresh : Exercise → Prop
  | new : Fresh new
  | ofRows (rows : List Row) : Fresh (ofRows rows)
  | load {σ : Type} {files : FileAccess (StateM σ)} {path : String} {s : σ} {ex : Exercise} :
      ((load files path).run s).1 = .ok ex → Fresh ex

theorem modified_of_ofLesson {path text : String} {ex : Exercise}
    (h : ofLesson path text = .ok ex) : ex.modified = false := by
  unfold ofLesson at h
  split at h
  · cases h
  · cases h
  · cases h
    rfl

theorem exists_ofLesson_of_load {σ : Type} {files : FileAccess (StateM σ)} {path : String} {s : σ}
    {ex : Exercise} (h : ((load files path).run s).1 = .ok ex) :
    ∃ text, ofLesson path text = .ok ex := by
  rw [load_run] at h
  split at h
  · cases h
  · exact ⟨_, h⟩

theorem Fresh.modified {ex : Exercise} (h : Fresh ex) : ex.modified = false := by
  cases h with
  | new => rfl
  | ofRows rows => rfl
  | load h =>
    obtain ⟨text, h⟩ := exists_ofLesson_of_load h
    exact modified_of_ofLesson h

/-! ## Actions -/

/-- What a session can do to its exercise. -/
inductive Action where
  | edit (a : Address) (text : String)
  | editNamed (name text : String)
  | clear (a : Address)
  | toggle
  | setPlaces (places : Nat)
  | save
  deriving DecidableEq

namespace Action

/-- The cell that an edit is addressed to. -/
def cell? : Action → Option Address
  | edit a _ => some a
  | editNamed name _ => Address.ofChars? name.toList
  | clear a => some a
  | _ => none

/-- The text that an edit puts into its cell. -/
def text? : Action → Option String
  | edit _ text => some text
  | editNamed _ text => some text
  | clear _ => some ""
  | _ => none

/-- The places that are shown from then on. -/
def places? : Action → Option Nat
  | setPlaces places => some places
  | _ => none

theorem of_cell? {action : Action} {a : Address} (h : action.cell? = some a) :
    action ≠ .toggle ∧ action.places? = none ∧ action ≠ .save := by
  cases action <;> simp_all [cell?, places?]

end Action

section Sessions

variable {σ : Type}

/-- The exercise after an action, or the reason for which the action fails. -/
def attempt (files : FileAccess (StateM σ)) (ex : Exercise) :
    Action → StateM σ (Except LessonFault Exercise)
  | .edit a text => pure ((ex.edit a text).map Prod.fst)
  | .editNamed name text => pure ((ex.editNamed name text).map Prod.fst)
  | .clear a => pure (ex.clear a)
  | .toggle => pure (.ok ex.toggle)
  | .setPlaces places => pure (.ok { ex with places := places })
  | .save => ex.save files

/-- An action with the exercise and the files before it, the fault if it has failed, and the exercise and
the files after it. -/
structure Entry (σ : Type) where
  action : Action
  before : Exercise
  filesBefore : σ
  fault : Option LessonFault
  after : Exercise
  filesAfter : σ

/-- The entry of an action with an outcome. A session goes on with the same exercise when an action
fails. -/
def record (ex : Exercise) (action : Action) (s s' : σ) : Except LessonFault Exercise → Entry σ
  | .error fault => ⟨action, ex, s, some fault, ex, s'⟩
  | .ok after => ⟨action, ex, s, none, after, s'⟩

/-- Does an action. -/
def perform (files : FileAccess (StateM σ)) (ex : Exercise) (action : Action) :
    StateM σ (Entry σ) := do
  let s ← get
  let outcome ← ex.attempt files action
  let s' ← get
  pure (ex.record action s s' outcome)

/-- Does some actions one after the other. This gives the log and the exercise at the end. -/
def session (files : FileAccess (StateM σ)) (ex : Exercise) :
    List Action → StateM σ (List (Entry σ) × Exercise)
  | [] => pure ([], ex)
  | action :: actions => do
    let e ← ex.perform files action
    let (log, final) ← e.after.session files actions
    pure (e :: log, final)

/-! ## A single action -/

/-- All that an action can do to an exercise and to the files, with the fault of an action that fails.
The files are touched by a saving alone, which has no fault if and only if the lesson has been written. -/
inductive Step (files : FileAccess (StateM σ)) (ex : Exercise) (s : σ) :
    Action → Option LessonFault → Exercise → σ → Prop
  | write {action : Action} {a : Address} {text : String} :
      action.cell? = some a → action.text? = some text → a.InExercise →
      Step files ex s action none (ex.write a text) s
  | outsideGrid {action : Action} {a : Address} :
      action.cell? = some a → ¬ a.InExercise →
      Step files ex s action (some (.outsideGrid a)) ex s
  | invalidAddress {name text : String} :
      Address.ofChars? name.toList = none →
      Step files ex s (.editNamed name text) (some (.invalidAddress name)) ex s
  | toggle : Step files ex s .toggle none ex.toggle s
  | setPlaces (places : Nat) :
      Step files ex s (.setPlaces places) none { ex with places := places } s
  | save {path : String} {s' : σ} :
      ex.file = some path → (files.writeText path ex.lesson).run s = (.ok (), s') →
      Step files ex s .save none { ex with modified := false } s'
  | noFile : ex.file = none → Step files ex s .save (some .noFile) ex s
  | unwritten {path : String} {fault : FileFault} {s' : σ} :
      ex.file = some path → (files.writeText path ex.lesson).run s = (.error fault, s') →
      Step files ex s .save (some (.file fault)) ex s'

/-- An entry that records what an action can do. -/
def Entry.Recorded (files : FileAccess (StateM σ)) (e : Entry σ) : Prop :=
  Step files e.before e.filesBefore e.action e.fault e.after e.filesAfter

variable {files : FileAccess (StateM σ)} {ex : Exercise} {action : Action} {s s' : σ}

theorem recorded_edit (files : FileAccess (StateM σ)) (ex : Exercise) (s : σ) {a : Address}
    {text : String} (hcell : action.cell? = some a) (htext : action.text? = some text) :
    (ex.record action s s ((ex.edit a text).map Prod.fst)).Recorded files := by
  by_cases hin : a.InExercise
  · rw [edit_of_inExercise hin]
    exact .write hcell htext hin
  · rw [edit_of_not_inExercise hin]
    exact .outsideGrid hcell hin

theorem recorded_editNamed (files : FileAccess (StateM σ)) (ex : Exercise) (s : σ)
    (name text : String) :
    (ex.record (.editNamed name text) s s
      ((ex.editNamed name text).map Prod.fst)).Recorded files := by
  cases hname : Address.ofChars? name.toList with
  | none =>
    simp only [editNamed, hname]
    exact .invalidAddress hname
  | some a =>
    simp only [editNamed, hname]
    exact recorded_edit files ex s hname rfl

theorem recorded_save {outcome : Except LessonFault Exercise}
    (h : (ex.save files).run s = (outcome, s')) :
    (ex.record .save s s' outcome).Recorded files := by
  unfold save at h
  split at h
  · next hfile =>
    cases h
    exact .noFile hfile
  · next path hfile =>
    cases hwrite : (files.writeText path ex.lesson).run s with
    | mk written after =>
      rw [run_bind_of_run hwrite] at h
      cases written with
      | error fault =>
        cases h
        exact .unwritten hfile hwrite
      | ok _ =>
        cases h
        exact .save hfile hwrite

theorem recorded_of_attempt {outcome : Except LessonFault Exercise}
    (h : (ex.attempt files action).run s = (outcome, s')) :
    (ex.record action s s' outcome).Recorded files := by
  cases action with
  | edit a text =>
    cases h
    exact recorded_edit files ex s rfl rfl
  | editNamed name text =>
    cases h
    exact recorded_editNamed files ex s name text
  | clear a =>
    cases h
    exact recorded_edit files ex s rfl rfl
  | toggle =>
    cases h
    exact .toggle
  | setPlaces places =>
    cases h
    exact .setPlaces places
  | save => exact recorded_save h

/-- Whatever is done, and whatever the files are, the entry records a transition from the exercise and the
files as they are. -/
theorem recorded_of_perform {e : Entry σ} (h : (ex.perform files action).run s = (e, s')) :
    (e.action = action ∧ e.before = ex ∧ e.filesBefore = s ∧ e.filesAfter = s') ∧
      e.Recorded files := by
  cases hattempt : (ex.attempt files action).run s with
  | mk outcome after =>
    -- The files are looked at before and after the action, and looking changes none of them.
    have hget : ∀ s : σ, (get : StateM σ σ).run s = (s, s) := fun _ => rfl
    unfold perform at h
    rw [run_bind_of_run (hget s), run_bind_of_run hattempt, run_bind_of_run (hget after)] at h
    cases h
    exact ⟨by cases outcome <;> exact ⟨rfl, rfl, rfl, rfl⟩, recorded_of_attempt hattempt⟩

end Sessions

/-! ## What one entry says -/

namespace Entry

variable {σ : Type} {files : FileAccess (StateM σ)} {e : Entry σ}

/-- The text that the action has put into a cell, if it has put one there. -/
def text? (e : Entry σ) (a : Address) : Option String :=
  if e.fault = none ∧ e.action.cell? = some a then e.action.text? else none

/-- The action is an edit that has been made. -/
def Edited (e : Entry σ) : Prop :=
  e.fault = none ∧ e.action.text?.isSome = true

/-- The action is a saving that has been done. -/
def Saved (e : Entry σ) : Prop :=
  e.fault = none ∧ e.action = .save

/-- A cell holds the text that has been put there, if any, and every other one what it held. -/
theorem Recorded.raw? (h : e.Recorded files) (b : Address) :
    e.after.raw? b = (e.before.raw? b).map fun old => (e.text? b).getD old := by
  obtain ⟨action, ex, s, fault, after, s'⟩ := e
  change Step files ex s action fault after s' at h
  cases h with
  | @write _ a text hcell htext _ =>
    have hraw : (ex.write a text).raw? b = if b = a then (ex.raw? b).map fun _ => text else ex.raw? b :=
      ex.grid.raw?_set a b text
    by_cases hba : b = a
    · subst hba
      simp [hraw, text?, hcell, htext]
    · simp [hraw, text?, hcell, hba, Ne.symm hba]
  | toggle => simp [text?, Action.cell?, toggle, Exercise.raw?]
  | setPlaces places => simp [text?, Action.cell?, Exercise.raw?]
  | save _ _ => simp [text?, Action.cell?, Exercise.raw?]
  | _ => simp [text?]

theorem Recorded.modified_iff (h : e.Recorded files) :
    e.after.modified = true ↔ e.Edited ∨ (e.before.modified = true ∧ ¬ e.Saved) := by
  obtain ⟨action, ex, s, fault, after, s'⟩ := e
  change Step files ex s action fault after s' at h
  cases h with
  | write hcell htext _ => simp [Edited, htext, write]
  | toggle => simp [Edited, Saved, Action.text?, toggle]
  | setPlaces places => simp [Edited, Saved, Action.text?]
  | save _ _ => simp [Edited, Saved, Action.text?]
  | _ => simp [Edited, Saved]

theorem Recorded.file (h : e.Recorded files) : e.after.file = e.before.file := by
  obtain ⟨action, ex, s, fault, after, s'⟩ := e
  change Step files ex s action fault after s' at h
  cases h <;> rfl

theorem Recorded.places (h : e.Recorded files) :
    e.after.places = e.action.places?.getD e.before.places := by
  obtain ⟨action, ex, s, fault, after, s'⟩ := e
  change Step files ex s action fault after s' at h
  cases h with
  | write hcell _ _ => simp [(Action.of_cell? hcell).2.1, write]
  | outsideGrid hcell _ => simp [(Action.of_cell? hcell).2.1]
  | _ => rfl

theorem Recorded.showsFormulas (h : e.Recorded files) :
    e.after.showsFormulas = (e.before.showsFormulas ^^ decide (e.action = .toggle)) := by
  obtain ⟨action, ex, s, fault, after, s'⟩ := e
  change Step files ex s action fault after s' at h
  cases h with
  | write hcell _ _ => simp [(Action.of_cell? hcell).1, write]
  | outsideGrid hcell _ => simp [(Action.of_cell? hcell).1]
  | toggle => simp [toggle]
  | _ => simp

theorem Recorded.succeeds_iff (h : e.Recorded files) (htext : e.action.text?.isSome = true) :
    e.fault = none ↔ ∃ a, e.action.cell? = some a ∧ a.InExercise := by
  obtain ⟨action, ex, s, fault, after, s'⟩ := e
  change Step files ex s action fault after s' at h
  cases h with
  | write hcell _ hin => simp [hcell, hin]
  | outsideGrid hcell hout => simp [hcell, hout]
  | invalidAddress hname => simp [Action.cell?, hname]
  | _ => cases htext

/-- An action that has failed has changed nothing. -/
theorem Recorded.after_eq (h : e.Recorded files) (hfault : e.fault ≠ none) : e.after = e.before := by
  obtain ⟨action, ex, s, fault, after, s'⟩ := e
  change Step files ex s action fault after s' at h
  cases h <;> first | rfl | exact absurd rfl hfault

/-- A saving is done exactly when the exercise has a file and its lesson can be written there. -/
theorem Recorded.saves_iff (h : e.Recorded files) (hsave : e.action = .save) :
    e.fault = none ↔ ∃ path, e.before.file = some path ∧
      ((files.writeText path e.before.lesson).run e.filesBefore).1 = .ok () := by
  obtain ⟨action, ex, s, fault, after, s'⟩ := e
  change Step files ex s action fault after s' at h
  cases h with
  | save hfile hwrite => simp [hfile, hwrite]
  | noFile hfile => simp [hfile]
  | unwritten hfile hwrite => simp [hfile, hwrite]
  | write hcell _ _ => exact absurd hsave (Action.of_cell? hcell).2.2
  | outsideGrid hcell _ => exact absurd hsave (Action.of_cell? hcell).2.2
  | _ => cases hsave

end Entry

/-! ## Whole sessions -/

section Sessions

variable {σ : Type} {files : FileAccess (StateM σ)}

/-- The entries record transitions from the first exercise and files to the second ones. -/
inductive Trace (files : FileAccess (StateM σ)) :
    Exercise → σ → List (Entry σ) → Exercise → σ → Prop
  | nil (ex : Exercise) (s : σ) : Trace files ex s [] ex s
  | cons {e : Entry σ} {log : List (Entry σ)} {final : Exercise} {s' : σ} :
      e.Recorded files → Trace files e.after e.filesAfter log final s' →
      Trace files e.before e.filesBefore (e :: log) final s'

theorem trace_of_session {actions : List Action} {ex final : Exercise} {log : List (Entry σ)}
    {s s' : σ} (h : (ex.session files actions).run s = ((log, final), s')) :
    Trace files ex s log final s' ∧ log.map Entry.action = actions := by
  induction actions generalizing ex log s with
  | nil =>
    cases h
    exact ⟨.nil _ _, rfl⟩
  | cons action actions ih =>
    unfold session at h
    cases hperform : (ex.perform files action).run s with
    | mk e mid =>
      rw [run_bind_of_run hperform] at h
      obtain ⟨⟨haction, rfl, rfl, rfl⟩, hrecorded⟩ := recorded_of_perform hperform
      cases hrest : (e.after.session files actions).run e.filesAfter with
      | mk result last =>
        obtain ⟨log', final'⟩ := result
        rw [run_bind_of_run hrest] at h
        cases h
        obtain ⟨htrace, hactions⟩ := ih hrest
        refine ⟨.cons hrecorded htrace, ?_⟩
        rw [List.map_cons, haction, hactions]

/-- The last item of a filtered list, or else a value from before. -/
theorem getLast?_filterMap_cons {α β : Type} (f : α → Option β) (x : α) (xs : List α) (b : β) :
    ((x :: xs).filterMap f).getLast?.getD b = (xs.filterMap f).getLast?.getD ((f x).getD b) := by
  cases hx : f x with
  | none => simp [hx]
  | some y => simp [hx, List.getLast?_cons]

namespace Trace

variable {start final : Exercise} {log : List (Entry σ)} {s s' : σ}

theorem recorded (h : Trace files start s log final s') : ∀ e ∈ log, e.Recorded files := by
  induction h with
  | nil => simp
  | cons he _ ih => simpa using ⟨he, ih⟩

theorem file (h : Trace files start s log final s') : final.file = start.file := by
  induction h with
  | nil => rfl
  | cons he _ ih => rw [ih, he.file]

theorem raw? (h : Trace files start s log final s') (a : Address) :
    final.raw? a =
      (start.raw? a).map fun old => (log.filterMap (·.text? a)).getLast?.getD old := by
  induction h with
  | nil => simp
  | cons he _ ih =>
    rw [ih, he.raw? a, Option.map_map]
    simp only [getLast?_filterMap_cons]
    rfl

theorem places (h : Trace files start s log final s') :
    final.places = (log.filterMap (·.action.places?)).getLast?.getD start.places := by
  induction h with
  | nil => rfl
  | cons he _ ih => rw [ih, he.places, getLast?_filterMap_cons]

theorem showsFormulas (h : Trace files start s log final s') :
    final.showsFormulas = (start.showsFormulas ^^ (log.countP (·.action = .toggle)).bodd) := by
  induction h with
  | nil => simp
  | @cons e log _ _ he _ ih =>
    rw [ih, he.showsFormulas]
    by_cases htoggle : e.action = .toggle <;> simp [htoggle]

end Trace

/-- Some entry of the log is an edit that has been made, with no saving done after it. -/
def Unsaved (log : List (Entry σ)) : Prop :=
  ∃ earlier e later, log = earlier ++ e :: later ∧ e.Edited ∧ ∀ e' ∈ later, ¬ e'.Saved

theorem unsaved_cons_iff {e : Entry σ} {log : List (Entry σ)} :
    Unsaved (e :: log) ↔ (e.Edited ∧ ∀ e' ∈ log, ¬ e'.Saved) ∨ Unsaved log := by
  constructor
  · rintro ⟨earlier, e', later, hlog, hedited, hsaved⟩
    rcases List.cons_eq_append_iff.mp hlog with ⟨rfl, hcons⟩ | ⟨earlier', rfl, rfl⟩
    · cases hcons
      exact .inl ⟨hedited, hsaved⟩
    · exact .inr ⟨earlier', e', later, rfl, hedited, hsaved⟩
  · rintro (⟨hedited, hsaved⟩ | ⟨earlier, e', later, rfl, hedited, hsaved⟩)
    · exact ⟨[], e, log, rfl, hedited, hsaved⟩
    · exact ⟨e :: earlier, e', later, rfl, hedited, hsaved⟩

/-- Whether the exercise counts as edited is decided by the last edit or saving of the log, and by the
start where there is none. -/
theorem Trace.modified_iff {start final : Exercise} {log : List (Entry σ)} {s s' : σ}
    (h : Trace files start s log final s') :
    final.modified = true ↔
      Unsaved log ∨ (start.modified = true ∧ ∀ e ∈ log, ¬ e.Saved) := by
  induction h with
  | nil ex s => simp [Unsaved]
  | cons he _ ih =>
    -- What is unsaved after the first entry is the edit that it records, or what was unsaved before it.
    rw [ih, he.modified_iff, unsaved_cons_iff]
    simp only [List.forall_mem_cons]
    tauto

end Sessions

/-- A session on a new or loaded exercise goes through all its actions, and each does what `Step` says. At
the end the exercise has twenty rows of five cells, and a cell holds the last text that has been put into
it, or the one it had at first. An edit fails exactly when its cell is not in the exercise, and a
saving exactly when there is no file or the lesson cannot be written there. The exercise counts as edited
exactly when an edit has been made with no saving done after it. An action that fails leaves everything
as it was. -/
theorem session_refines_cells {σ : Type} (files : FileAccess (StateM σ)) {start : Exercise}
    (hstart : Fresh start) (actions : List Action) (s : σ) :
    ∃ log final s', (start.session files actions).run s = ((log, final), s') ∧
      log.map Entry.action = actions ∧ Trace files start s log final s' ∧
      final.grid.rows.length = 20 ∧
      (∀ a, final.raw? a = none ↔ 5 ≤ a.col.toNat ∨ 20 ≤ a.row.toNat) ∧
      (∀ a old, start.raw? a = some old →
        final.raw? a = some ((log.filterMap (·.text? a)).getLast?.getD old)) ∧
      (∀ e ∈ log, e.action.text?.isSome = true →
        (e.fault = none ↔ ∃ a, e.action.cell? = some a ∧ a.InExercise)) ∧
      (∀ e ∈ log, e.action = .save → (e.fault = none ↔ ∃ path, e.before.file = some path ∧
        ((files.writeText path e.before.lesson).run e.filesBefore).1 = .ok ())) ∧
      (final.modified = true ↔ Unsaved log) ∧
      (∀ e ∈ log, e.fault ≠ none → e.after = e.before) ∧
      final.places = (log.filterMap (·.action.places?)).getLast?.getD start.places ∧
      final.showsFormulas = (start.showsFormulas ^^ (log.countP (·.action = .toggle)).bodd) ∧
      final.file = start.file := by
  cases hrun : (start.session files actions).run s with
  | mk result s' =>
    obtain ⟨log, final⟩ := result
    obtain ⟨htrace, hactions⟩ := trace_of_session hrun
    refine ⟨log, final, s', rfl, hactions, htrace, final.length_rows, ?_, ?_, ?_, ?_, ?_,
      ?_, htrace.places, htrace.showsFormulas, htrace.file⟩
    · intro a
      rw [final.raw?_eq_none_iff, Address.InExercise, exerciseRows]
      omega
    · intro a old hold
      rw [htrace.raw? a, hold, Option.map_some]
    · intro e he
      exact (htrace.recorded e he).succeeds_iff
    · intro e he
      exact (htrace.recorded e he).saves_iff
    · rw [htrace.modified_iff, hstart.modified]
      simp
    · intro e he
      exact (htrace.recorded e he).after_eq

/-- A folder with a lesson of one cell. -/
def lessonFolder : Folder :=
  Folder.empty.put "l" (encodeText "a")

/-- Two edits of cells, two that fail, and a saving between the former. -/
def lessonActions : List Action :=
  [.editNamed "b1" "x", .edit ⟨5, 0⟩ "y", .save, .clear ⟨0, 0⟩, .editNamed "F1" "z"]

theorem load_lessonFolder : ((load Folder.access "l").run lessonFolder).1 = .ok oneCell := by
  have hparse : Lesson.parse "a" = .ok [⟨"a", "", "", "", ""⟩] := by cbv
  have hname : Folder.empty.locate "l" = .ok "l" := by cbv
  have hwrite : (Folder.access.write "l" (encodeText "a")).run Folder.empty =
      (.ok (), lessonFolder) := by
    simp only [Folder.access, StateT.run, Folder.write, hname]
    rfl
  have hload := load_of_read (Folder.access_keepsWritten _ _ _ _ hwrite)
  exact hload.trans (ofLesson_of_parse hparse (List.cons_ne_nil _ _))

/-- In this session on a loaded lesson two edits fail, and the last one that is made comes after the
saving. -/
theorem session_on_oneCell : Fresh oneCell ∧
    ∃ log final folder,
      (oneCell.session Folder.access lessonActions).run lessonFolder = ((log, final), folder) ∧
      log.map Entry.fault =
        [none, some (.outsideGrid ⟨5, 0⟩), none, none, some (.invalidAddress "F1")] ∧
      final.raw? ⟨1, 0⟩ = some "x" ∧ final.raw? ⟨0, 0⟩ = some "" ∧ final.raw? ⟨5, 0⟩ = none ∧
      final.modified = true := by
  have hfresh : Fresh oneCell := .load load_lessonFolder
  refine ⟨hfresh, ?_⟩
  obtain ⟨log, final, folder, hrun, _, _, _, houtside, htexts, _⟩ :=
    session_refines_cells Folder.access hfresh lessonActions lessonFolder
  have hlog : ((oneCell.session Folder.access lessonActions).run lessonFolder).1.1 = log := by
    rw [hrun]
  have hfaults : log.map Entry.fault =
      [none, some (.outsideGrid ⟨5, 0⟩), none, none, some (.invalidAddress "F1")] := by
    rw [← hlog]
    cbv
  have hputB : log.filterMap (·.text? ⟨1, 0⟩) = ["x"] := by
    rw [← hlog]
    cbv
  have hputA : log.filterMap (·.text? ⟨0, 0⟩) = [""] := by
    rw [← hlog]
    cbv
  have hmodified : ((oneCell.session Folder.access lessonActions).run lessonFolder).1.2.modified =
      true := by cbv
  rw [hrun] at hmodified
  have hb := htexts ⟨1, 0⟩ "" (by cbv)
  have ha := htexts ⟨0, 0⟩ "a" (by cbv)
  rw [hputB] at hb
  rw [hputA] at ha
  refine ⟨log, final, folder, hrun, hfaults, hb, ha, (houtside _).mpr (.inl (by decide)), hmodified⟩

end Exercise

end LessonGrid
