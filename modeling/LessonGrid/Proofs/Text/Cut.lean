import Mathlib.Data.List.TakeWhile

/-!
# Texts cut at a mark

A text is cut at the first place where a mark stands: in front of the mark are the characters up to it,
behind it is everything else, further marks included.

Main statement: `dropWhile_ne_eq_cons_iff`.
-/

set_option autoImplicit false

namespace LessonGrid

variable {mark : Char} {front back cs : List Char}

theorem takeWhile_ne_append (h : mark ∉ front) :
    (front ++ mark :: back).takeWhile (· != mark) = front := by
  have hfront : ∀ c ∈ front, (c != mark) = true := fun c hc =>
    bne_iff_ne.mpr fun heq => h (heq ▸ hc)
  rw [List.takeWhile_append_of_pos hfront, List.takeWhile_cons_of_neg (by simp), List.append_nil]

theorem dropWhile_ne_append (h : mark ∉ front) :
    (front ++ mark :: back).dropWhile (· != mark) = mark :: back := by
  have hfront : ∀ c ∈ front, (c != mark) = true := fun c hc =>
    bne_iff_ne.mpr fun heq => h (heq ▸ hc)
  rw [List.dropWhile_append_of_pos hfront, List.dropWhile_cons_of_neg (by simp)]

/-- The mark does not stand in front of the first place where it stands. -/
theorem mark_not_mem_takeWhile_ne (mark : Char) (cs : List Char) :
    mark ∉ cs.takeWhile (· != mark) := fun h => by
  simpa using List.mem_takeWhile_imp h

/-- A text holds a mark exactly when it is cut there, and then it is made of the two pieces with the mark
between them. -/
theorem dropWhile_ne_eq_cons_iff {c : Char} :
    cs.dropWhile (· != mark) = c :: back ↔
      c = mark ∧ cs = cs.takeWhile (· != mark) ++ mark :: back := by
  constructor
  · intro h
    have hhead := List.head?_dropWhile_not (· != mark) cs
    rw [h] at hhead
    have hc : c = mark := by simpa using hhead
    refine ⟨hc, ?_⟩
    rw [← hc] at h ⊢
    rw [← h, List.takeWhile_append_dropWhile]
  · rintro ⟨rfl, hcs⟩
    rw [hcs]
    exact dropWhile_ne_append (mark_not_mem_takeWhile_ne c cs)

end LessonGrid
