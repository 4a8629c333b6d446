/-!
# Counting in words

Rows and columns are 64-bit words, and they are counted in words. A step of counting that leaves the
words has no result: the program stops there.
-/

set_option autoImplicit false

namespace LessonGrid.Word

/-- The sum of two words, unless it lies past the last word. -/
def sum? (x y : UInt64) : Option UInt64 :=
  if x.toNat + y.toNat < UInt64.size then some (x + y) else none

/-- The difference of two words, unless it lies below zero. -/
def difference? (x y : UInt64) : Option UInt64 :=
  if y ≤ x then some (x - y) else none

/-- The number of words from `low` to `high`, both included, unless a step of counting leaves the
words. -/
def count? (low high : UInt64) : Option UInt64 := do
  let above ← difference? high low
  sum? above 1

/-- What the program says where it stops because a sum lies past the last word. -/
def overflowText : String :=
  "attempt to add with overflow"

theorem sum?_eq_some_iff {x y z : UInt64} : sum? x y = some z ↔ z.toNat = x.toNat + y.toNat := by
  unfold sum?
  split
  · next hsum =>
    have hexact : (x + y).toNat = x.toNat + y.toNat := by
      rw [UInt64.toNat_add]
      exact Nat.mod_eq_of_lt hsum
    rw [Option.some.injEq, ← UInt64.toNat_inj, hexact, eq_comm]
  · next hsum =>
    refine iff_of_false (by simp) fun h => hsum ?_
    rw [← h]
    exact z.toNat_lt_size

theorem sum?_eq_none_iff {x y : UInt64} : sum? x y = none ↔ UInt64.size ≤ x.toNat + y.toNat := by
  unfold sum?
  split <;> simp_all

theorem difference?_of_le {x y : UInt64} (h : y ≤ x) : difference? x y = some (x - y) :=
  if_pos h

end LessonGrid.Word
