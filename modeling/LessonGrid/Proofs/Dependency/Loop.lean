import Mathlib.Data.List.Chain
import Mathlib.Logic.Relation

/-!
# Loops of a relation

What it means for steps of a relation to lead into a loop, and the shape of a way that does: a
lasso, whose last element is the first one to repeat. Where every element has at most one step, the
lasso from an element closes at that element exactly when the steps from it come back to it.

Main statements: `leadsToLoop_iff_exists_step`, `IsLasso.leadsToLoop` and
`IsLasso.getLast?_eq_head_iff`.
-/

set_option autoImplicit false

namespace LessonGrid

open Relation

variable {α : Type} {r : α → α → Prop}

/-- Steps from an element lead into a loop, which may pass the element itself. -/
def LeadsToLoop (r : α → α → Prop) (a : α) : Prop :=
  ∃ b, ReflTransGen r a b ∧ TransGen r b b

/-- Whatever leads into a loop has a step to something that does, and conversely. -/
theorem leadsToLoop_iff_exists_step {a : α} :
    LeadsToLoop r a ↔ ∃ b, r a b ∧ LeadsToLoop r b := by
  constructor
  · rintro ⟨b, hab, hbb⟩
    rcases hab.cases_head with rfl | ⟨c, hac, hcb⟩
    · obtain ⟨c, hac, hca⟩ := TransGen.head'_iff.mp hbb
      exact ⟨c, hac, a, hca, hbb⟩
    · exact ⟨c, hac, b, hcb, hbb⟩
  · rintro ⟨b, hab, c, hbc, hcc⟩
    exact ⟨c, ReflTransGen.head hab hbc, hcc⟩

/-! ## Chains -/

/-- Everything in a chain but its last element has a step to a later element. -/
theorem exists_rel_of_mem_dropLast {way : List α} (h : way.IsChain r) {x : α}
    (hx : x ∈ way.dropLast) : ∃ y ∈ way.tail, r x y := by
  induction way with
  | nil => simp at hx
  | cons a way ih =>
    cases way with
    | nil => simp at hx
    | cons b way =>
      rw [List.dropLast_cons_cons, List.mem_cons] at hx
      rcases hx with rfl | hx
      · exact ⟨b, List.mem_cons_self, h.rel⟩
      · obtain ⟨y, hy, hxy⟩ := ih h.tail hx
        exact ⟨y, List.mem_cons_of_mem b hy, hxy⟩

/-- A chain leads from each of its elements to its last one. -/
theorem reflTransGen_of_isChain {way : List α} (h : way.IsChain r) {x q : α} (hx : x ∈ way)
    (hq : way.getLast? = some q) : ReflTransGen r x q := by
  obtain ⟨s, t, rfl⟩ := List.append_of_mem hx
  have hlast : (x :: t).getLast (List.cons_ne_nil x t) = q := by
    have hne : x :: t ≠ [] := List.cons_ne_nil x t
    rw [List.getLast?_append_of_ne_nil s hne, List.getLast?_eq_some_getLast hne] at hq
    exact Option.some.inj hq
  exact List.relationReflTransGen_of_exists_isChain_cons t h.right_of_append hlast

theorem dropLast_lasso (lead loop : List α) (q : α) :
    (lead ++ q :: (loop ++ [q])).dropLast = lead ++ q :: loop := by
  rw [show lead ++ q :: (loop ++ [q]) = (lead ++ q :: loop) ++ [q] by simp, List.dropLast_concat]

theorem dropLast_loop (loop : List α) (q : α) :
    (q :: (loop ++ [q])).dropLast = q :: loop :=
  dropLast_lasso [] loop q

theorem getLast?_lasso (lead loop : List α) (q : α) :
    (lead ++ q :: (loop ++ [q])).getLast? = some q := by
  rw [show lead ++ q :: (loop ++ [q]) = (lead ++ q :: loop) ++ [q] by simp, List.getLast?_concat]

/-- A chain that ends where it begins, after a step at least, is a loop. -/
theorem transGen_of_isChain {q : α} {loop : List α} (h : (q :: (loop ++ [q])).IsChain r) :
    TransGen r q q := by
  have hq : q ∈ (q :: (loop ++ [q])).dropLast := by
    rw [dropLast_loop]
    exact List.mem_cons_self
  obtain ⟨y, hy, hqy⟩ := exists_rel_of_mem_dropLast h hq
  exact TransGen.head' hqy (reflTransGen_of_isChain h.tail hy (by simp))

/-- A chain with a repetition leads from its first element into a loop: the part between the two
occurrences is one. -/
theorem leadsToLoop_of_not_nodup {a : α} {way : List α} (h : (a :: way).IsChain r)
    (hrepeats : ¬ (a :: way).Nodup) : LeadsToLoop r a := by
  induction way generalizing a with
  | nil => exact absurd (List.pairwise_singleton _ a) hrepeats
  | cons b way ih =>
    by_cases ha : a ∈ b :: way
    · obtain ⟨loop, rest, hsplit⟩ := List.append_of_mem ha
      have hclosed : (a :: (loop ++ [a])).IsChain r := by
        rw [hsplit, show a :: (loop ++ a :: rest) = (a :: (loop ++ [a])) ++ rest by simp] at h
        exact h.left_of_append
      exact ⟨a, .refl, transGen_of_isChain hclosed⟩
    · have hrest : ¬ (b :: way).Nodup := fun hnodup =>
        hrepeats (List.nodup_cons.mpr ⟨ha, hnodup⟩)
      exact leadsToLoop_iff_exists_step.mpr ⟨b, h.rel, ih h.tail hrest⟩

/-! ## Lassos -/

/-- A way that runs into itself: a chain without repetition up to its last element, which has
occurred before. -/
structure IsLasso (r : α → α → Prop) (way : List α) : Prop where
  chain : way.IsChain r
  nodup : way.dropLast.Nodup
  closes : ∃ lead q loop, way = lead ++ q :: (loop ++ [q])

/-- Every element of a lasso leads into its loop. -/
theorem IsLasso.leadsToLoop {way : List α} (h : IsLasso r way) {x : α} (hx : x ∈ way) :
    LeadsToLoop r x := by
  obtain ⟨lead, q, loop, rfl⟩ := h.closes
  refine ⟨q, reflTransGen_of_isChain h.chain hx (getLast?_lasso lead loop q), ?_⟩
  exact transGen_of_isChain h.chain.right_of_append

/-- A lasso closes at its last element. -/
theorem IsLasso.closes_at {way : List α} {q : α} (h : IsLasso r way)
    (hlast : way.getLast? = some q) : ∃ lead loop, way = lead ++ q :: (loop ++ [q]) := by
  obtain ⟨lead, q', loop, hway⟩ := h.closes
  rw [hway, getLast?_lasso] at hlast
  cases hlast
  exact ⟨lead, loop, hway⟩

/-- Nothing is repeated in a lasso before it closes. -/
theorem IsLasso.nodup_append {lead loop : List α} {q : α}
    (h : IsLasso r (lead ++ q :: (loop ++ [q]))) : (lead ++ q :: loop).Nodup := by
  rw [← dropLast_lasso]
  exact h.nodup

/-- The way to the loop of a lasso does not touch the element where the loop closes. -/
theorem IsLasso.not_mem_lead {lead loop : List α} {q : α}
    (h : IsLasso r (lead ++ q :: (loop ++ [q]))) : q ∉ lead :=
  fun hmem => (List.nodup_append.mp h.nodup_append).2.2 q hmem q List.mem_cons_self rfl

/-- The loop of a lasso is a lasso by itself. -/
theorem IsLasso.loop {lead loop : List α} {q : α} (h : IsLasso r (lead ++ q :: (loop ++ [q]))) :
    IsLasso r (q :: (loop ++ [q])) := by
  refine ⟨h.chain.right_of_append, ?_, [], q, loop, rfl⟩
  rw [dropLast_loop]
  exact h.nodup_append.sublist (List.sublist_append_right lead (q :: loop))

/-- The last element of a lasso is a repetition. -/
theorem IsLasso.not_nodup {way : List α} (h : IsLasso r way) : ¬ way.Nodup := by
  obtain ⟨lead, q, loop, rfl⟩ := h.closes
  intro hnodup
  have hloop : (q :: (loop ++ [q])).Nodup := hnodup.sublist (List.sublist_append_right lead _)
  exact (List.nodup_cons.mp hloop).1 (List.mem_append_right loop (List.mem_singleton_self q))

/-- A lasso closes where it first meets itself, so no lasso goes on from the end of another one. -/
theorem IsLasso.eq_of_prefix_way {way way' : List α} (h : IsLasso r way) (h' : IsLasso r way')
    (hfront : way <+: way') : way = way' := by
  obtain ⟨rest, rfl⟩ := hfront
  by_cases hrest : rest = []
  · rw [hrest, List.append_nil]
  · have hdrop : (way ++ rest).dropLast = way ++ rest.dropLast :=
      List.dropLast_append_of_ne_nil hrest
    have hnodup : (way ++ rest.dropLast).Nodup := hdrop ▸ h'.nodup
    exact absurd (hnodup.sublist (List.sublist_append_left way rest.dropLast)) h.not_nodup

/-- The part of a lasso from its last element on is the loop. -/
theorem dropWhile_lasso [DecidableEq α] {lead loop : List α} {q : α} (h : q ∉ lead) :
    (lead ++ q :: (loop ++ [q])).dropWhile (fun b => some b ≠ some q) = q :: (loop ++ [q]) := by
  have hlead : ∀ b ∈ lead, decide (some b ≠ some q) = true := by
    intro b hb
    have hne : b ≠ q := ne_of_mem_of_not_mem hb h
    simpa using hne
  rw [List.dropWhile_append_of_pos hlead, List.dropWhile_cons_of_neg (by simp)]

/-- A lasso whose first element is on its loop has nothing else in front of the loop. -/
theorem IsLasso.eq_head_of_mem_loop {a q : α} {tail lead loop : List α}
    (h : IsLasso r (a :: tail)) (hway : a :: tail = lead ++ q :: (loop ++ [q]))
    (hmem : a ∈ q :: loop) : q = a := by
  have hnodup : (lead ++ q :: loop).Nodup := (hway ▸ h).nodup_append
  cases lead with
  | nil =>
    rw [List.nil_append, List.cons.injEq] at hway
    exact hway.1.symm
  | cons b lead =>
    rw [List.cons_append, List.cons.injEq] at hway
    rw [← hway.1, List.cons_append, List.nodup_cons] at hnodup
    exact absurd (List.mem_append_right lead hmem) hnodup.1

/-- A lasso that ends at its first element is a loop, with nothing in front of it. -/
theorem IsLasso.eq_loop_of_getLast? {a : α} {tail : List α} (h : IsLasso r (a :: tail))
    (hlast : (a :: tail).getLast? = some a) : ∃ loop, a :: tail = a :: (loop ++ [a]) := by
  obtain ⟨lead, loop, hway⟩ := h.closes_at hlast
  have hnodup : (lead ++ a :: loop).Nodup := (hway ▸ h).nodup_append
  cases lead with
  | nil => exact ⟨loop, hway⟩
  | cons b lead =>
    rw [List.cons_append, List.cons.injEq] at hway
    rw [← hway.1, List.cons_append, List.nodup_cons] at hnodup
    exact absurd (List.mem_append_right lead List.mem_cons_self) hnodup.1

/-! ## At most one step from each element -/

/-- Where steps are unique, of two chains from one element one is the beginning of the other. -/
theorem prefix_or_prefix_of_isChain (hr : Relator.RightUnique r) {a : α} {way way' : List α}
    (h : (a :: way).IsChain r) (h' : (a :: way').IsChain r) :
    a :: way <+: a :: way' ∨ a :: way' <+: a :: way := by
  induction way generalizing a way' with
  | nil => exact .inl ((List.prefix_cons_inj a).mpr List.nil_prefix)
  | cons b way ih =>
    cases way' with
    | nil => exact .inr ((List.prefix_cons_inj a).mpr List.nil_prefix)
    | cons b' way' =>
      obtain rfl : b = b' := hr h.rel h'.rel
      exact (ih h.tail h'.tail).imp (List.prefix_cons_inj a).mpr (List.prefix_cons_inj a).mpr

/-- Where steps are unique, there is at most one lasso from an element. -/
theorem IsLasso.unique (hr : Relator.RightUnique r) {a : α} {tail tail' : List α}
    (h : IsLasso r (a :: tail)) (h' : IsLasso r (a :: tail')) : a :: tail = a :: tail' := by
  rcases prefix_or_prefix_of_isChain hr h.chain h'.chain with hfront | hfront
  · exact h.eq_of_prefix_way h' hfront
  · exact (h'.eq_of_prefix_way h hfront).symm

/-- Where steps are unique, an element on a loop is met again from whatever it leads to. -/
theorem reflTransGen_symm_of_transGen_self (hr : Relator.RightUnique r) {a b : α}
    (ha : TransGen r a a) (hab : ReflTransGen r a b) : ReflTransGen r b a := by
  induction hab with
  | refl => exact ReflTransGen.refl
  | @tail b c _ hbc ih =>
    have hstep : ∃ d, r b d ∧ ReflTransGen r d a := by
      rcases ih.cases_head with rfl | hstep
      · exact TransGen.head'_iff.mp ha
      · exact hstep
    obtain ⟨d, hbd, hda⟩ := hstep
    rwa [hr hbc hbd]

/-- Where steps are unique, they do not leave a loop. -/
theorem mem_loop_of_reflTransGen (hr : Relator.RightUnique r) {q x y : α} {loop : List α}
    (h : (q :: (loop ++ [q])).IsChain r) (hx : x ∈ q :: loop) (hxy : ReflTransGen r x y) :
    y ∈ q :: loop := by
  induction hxy with
  | refl => exact hx
  | @tail b c _ hbc ih =>
    have hb : b ∈ (q :: (loop ++ [q])).dropLast := by
      rw [dropLast_loop]
      exact ih
    obtain ⟨d, hd, hbd⟩ := exists_rel_of_mem_dropLast h hb
    rw [hr hbc hbd]
    simpa [or_comm] using hd

/-- Where steps are unique, a lasso ends at its first element exactly when this element is on a
loop: a lasso with another end has run into a loop that never comes back to the first element. -/
theorem IsLasso.getLast?_eq_head_iff (hr : Relator.RightUnique r) {a : α} {tail : List α}
    (h : IsLasso r (a :: tail)) : (a :: tail).getLast? = some a ↔ TransGen r a a := by
  obtain ⟨lead, q, loop, hway⟩ := h.closes
  have hchain : (lead ++ q :: (loop ++ [q])).IsChain r := hway ▸ h.chain
  have hlast : (a :: tail).getLast? = some q := by rw [hway, getLast?_lasso]
  rw [hlast, Option.some.injEq]
  constructor
  · rintro rfl
    exact transGen_of_isChain hchain.right_of_append
  · intro ha
    have hqa : ReflTransGen r q a := reflTransGen_symm_of_transGen_self hr ha
      (reflTransGen_of_isChain h.chain List.mem_cons_self hlast)
    exact h.eq_head_of_mem_loop hway
      (mem_loop_of_reflTransGen hr hchain.right_of_append List.mem_cons_self hqa)

end LessonGrid
