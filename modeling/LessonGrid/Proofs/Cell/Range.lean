import LessonGrid.Cell.Range

/-!
# The cells of a range

Which cells the sweep of a range comes by: those between its two ends in both directions, each at its
place in the rectangle. Rows and columns may be any words, since no step of the sweep goes past the
last one. Counting them in words is another matter: there is one word too few to count all of them.

Main statements: `Range.mem_cells_iff`, `Range.exists_getElem?_cells` and `Range.size?_eq`.
-/

set_option autoImplicit false

namespace LessonGrid

/-- A step that stays at or below the upper end does not wrap. -/
theorem toNat_add_of_lt_spanSize {low high : UInt64} {i : Nat} (hi : i < spanSize low high) :
    (low + i.toUInt64).toNat = low.toNat + i ∧ low.toNat + i ≤ high.toNat := by
  have hbound := high.toNat_lt
  unfold spanSize at hi
  split at hi
  · next hle =>
    have hends : low.toNat ≤ high.toNat := hle
    rw [UInt64.toNat_add, Nat.toUInt64_eq, UInt64.toNat_ofNat']
    omega
  · exact absurd hi (Nat.not_lt_zero i)

/-- The words of a span are those between its two ends. -/
theorem mem_span_iff {low high x : UInt64} : x ∈ span low high ↔ low ≤ x ∧ x ≤ high := by
  simp only [span, leadingSpan, Nat.min_self, List.mem_map, List.mem_range, UInt64.le_iff_toNat_le]
  constructor
  · rintro ⟨i, hi, rfl⟩
    obtain ⟨hsum, hhigh⟩ := toNat_add_of_lt_spanSize hi
    omega
  · rintro ⟨hlow, hhigh⟩
    have hends : low ≤ high := Nat.le_trans hlow hhigh
    have hsize : x.toNat - low.toNat < spanSize low high := by
      rw [spanSize, if_pos hends]
      omega
    refine ⟨x.toNat - low.toNat, hsize, ?_⟩
    rw [← UInt64.toNat_inj, (toNat_add_of_lt_spanSize hsize).1]
    omega

/-- The cells of a range are those between its first and its last one, in rows and in columns. -/
theorem Range.mem_cells_iff {r : Range} {a : Address} :
    a ∈ r.cells ↔ (r.first.row ≤ a.row ∧ a.row ≤ r.last.row) ∧
      r.first.col ≤ a.col ∧ a.col ≤ r.last.col := by
  simp only [cells, List.mem_flatMap, List.mem_map, mem_span_iff]
  constructor
  · rintro ⟨row, hrow, col, hcol, rfl⟩
    exact ⟨hrow, hcol⟩
  · rintro ⟨hrow, hcol⟩
    exact ⟨a.row, hrow, a.col, hcol, rfl⟩

/-! ## Places in the sweep -/

theorem length_span (low high : UInt64) : (span low high).length = spanSize low high := by
  simp [span, leadingSpan]

/-- The word at a place of a span lies that far above its lower end. -/
theorem getElem?_span {low high : UInt64} {i : Nat} (hi : i < spanSize low high) :
    ∃ x, (span low high)[i]? = some x ∧ x.toNat = low.toNat + i := by
  refine ⟨low + i.toUInt64, ?_, (toNat_add_of_lt_spanSize hi).1⟩
  rw [span, leadingSpan, Nat.min_self, List.getElem?_map, List.getElem?_range hi, Option.map_some]

/-- In a list of pieces of one length, a place is found by division. -/
theorem getElem?_flatMap_of_length {α β : Type} {f : α → List β} {width : Nat}
    (hf : ∀ a, (f a).length = width) (xs : List α) {k : Nat} (hk : k < width) (i : Nat) :
    (xs.flatMap f)[width * i + k]? = xs[i]?.bind fun a => (f a)[k]? := by
  induction xs generalizing i with
  | nil => simp
  | cons x xs ih =>
    rw [List.flatMap_cons]
    cases i with
    | zero =>
      rw [Nat.mul_zero, Nat.zero_add, List.getElem?_append_left (by rw [hf]; exact hk)]
      rfl
    | succ i =>
      have hplace : width * (i + 1) + k = (f x).length + (width * i + k) := by
        rw [hf, Nat.mul_succ]
        omega
      rw [hplace, List.getElem?_append_right (Nat.le_add_right _ _), Nat.add_sub_cancel_left, ih]
      rfl

namespace Range

/-- The number of rows from the first to the last. -/
def height (r : Range) : Nat :=
  spanSize r.first.row r.last.row

/-- The number of columns from the first to the last. -/
def width (r : Range) : Nat :=
  spanSize r.first.col r.last.col

theorem length_cells (r : Range) : r.cells.length = r.height * r.width := by
  simp [cells, length_span, height, width, List.length_flatMap, List.map_const']

/-- The sweep comes by each cell at its place in the rectangle. -/
theorem exists_getElem?_cells {r : Range} {i : Nat} (hi : i < r.cells.length) :
    ∃ a, r.cells[i]? = some a ∧ a.row.toNat = r.first.row.toNat + i / r.width ∧
      a.col.toNat = r.first.col.toNat + i % r.width := by
  rw [length_cells] at hi
  have hwidth : 0 < r.width := Nat.pos_of_lt_mul_left hi
  obtain ⟨row, hrow, hrowNat⟩ := getElem?_span (Nat.div_lt_of_lt_mul (Nat.mul_comm _ _ ▸ hi) :
    i / r.width < spanSize r.first.row r.last.row)
  obtain ⟨col, hcol, hcolNat⟩ := getElem?_span (Nat.mod_lt i hwidth :
    i % r.width < spanSize r.first.col r.last.col)
  refine ⟨⟨col, row⟩, ?_, hrowNat, hcolNat⟩
  have hpiece : ∀ row : UInt64, ((span r.first.col r.last.col).map fun col =>
      (⟨col, row⟩ : Address)).length = r.width := fun row => by
    rw [List.length_map, length_span]
    rfl
  have hplace := getElem?_flatMap_of_length hpiece (span r.first.row r.last.row)
    (Nat.mod_lt i hwidth) (i / r.width)
  rw [Nat.div_add_mod] at hplace
  rw [cells, hplace, hrow, Option.bind_some, List.getElem?_map, hcol, Option.map_some]

end Range

/-! ## Counting in words -/

namespace Word

variable {low high : UInt64}

theorem spanSize_eq_size_iff : spanSize low high = UInt64.size ↔
    low.toNat = 0 ∧ high.toNat = UInt64.size - 1 := by
  have hhigh := high.toNat_lt_size
  simp only [spanSize, UInt64.le_iff_toNat_le]
  split <;> omega

theorem spanSize_le_size : spanSize low high ≤ UInt64.size := by
  have hhigh := high.toNat_lt_size
  unfold spanSize
  split <;> omega

theorem count?_of_le (h : low ≤ high) : count? low high = sum? (high - low) 1 := by
  rw [count?, difference?_of_le h, Option.bind_eq_bind, Option.bind_some]

/-- The sum that counting ends with, before it is a word. -/
theorem toNat_sub_add_one (h : low ≤ high) :
    (high - low).toNat + (1 : UInt64).toNat = spanSize low high := by
  rw [UInt64.toNat_sub_of_le _ _ h, spanSize, if_pos h]
  rfl

theorem count?_eq_some_iff {n : UInt64} (h : low ≤ high) :
    count? low high = some n ↔ n.toNat = spanSize low high := by
  rw [count?_of_le h, sum?_eq_some_iff, toNat_sub_add_one h]

/-- All the words there are cannot be counted in words, any fewer can. -/
theorem count?_eq_none_iff (h : low ≤ high) :
    count? low high = none ↔ spanSize low high = UInt64.size := by
  rw [count?_of_le h, sum?_eq_none_iff, toNat_sub_add_one h]
  exact ⟨Nat.le_antisymm spanSize_le_size, fun hall => Nat.le_of_eq hall.symm⟩

end Word

/-! ## The size -/

namespace Range

variable {r : Range}

/-- The rows of the range, or its columns, are all the words there are. -/
def SpansAllWords (r : Range) : Prop :=
  r.isEmpty = false ∧ (r.height = UInt64.size ∨ r.width = UInt64.size)

instance (r : Range) : Decidable r.SpansAllWords :=
  inferInstanceAs (Decidable (_ ∧ _))

theorem spansAllWords_iff : r.SpansAllWords ↔ r.isEmpty = false ∧
    ((r.first.row.toNat = 0 ∧ r.last.row.toNat = UInt64.size - 1) ∨
      r.first.col.toNat = 0 ∧ r.last.col.toNat = UInt64.size - 1) := by
  rw [SpansAllWords, height, width, Word.spanSize_eq_size_iff, Word.spanSize_eq_size_iff]

theorem isEmpty_eq_false_iff : r.isEmpty = false ↔
    r.first.row ≤ r.last.row ∧ r.first.col ≤ r.last.col := by
  simp [isEmpty, UInt64.not_lt]

theorem length_cells_eq_zero_iff : r.cells.length = 0 ↔ r.isEmpty = true := by
  rw [← Bool.not_eq_false, isEmpty_eq_false_iff, length_cells, Nat.mul_eq_zero, height, width, spanSize,
    spanSize, Decidable.not_and_iff_or_not]
  split <;> split <;> simp [*]

/-- The size is the number of cells, up to the largest word. It cannot be counted where the range spans
all words. -/
theorem size?_eq (r : Range) :
    r.size? = if r.SpansAllWords then none else some (min r.cells.length maxSize) := by
  cases hempty : r.isEmpty with
  | true =>
    have hspan : ¬ r.SpansAllWords := fun h => by simp [h.1] at hempty
    rw [if_neg hspan, length_cells_eq_zero_iff.mpr hempty, Nat.zero_min, size?, if_pos hempty]
  | false =>
    obtain ⟨hrow, hcol⟩ := isEmpty_eq_false_iff.mp hempty
    have hspan : r.SpansAllWords ↔ r.height = UInt64.size ∨ r.width = UInt64.size :=
      and_iff_right hempty
    simp only [size?, hempty, Bool.false_eq_true, if_false, hspan, length_cells]
    cases hrows : Word.count? r.first.row r.last.row with
    | none =>
      have hheight : r.height = UInt64.size := (Word.count?_eq_none_iff hrow).mp hrows
      simp [hheight]
    | some rows =>
      have hheight : rows.toNat = r.height := (Word.count?_eq_some_iff hrow).mp hrows
      have hfewRows : r.height ≠ UInt64.size := hheight ▸ Nat.ne_of_lt rows.toNat_lt_size
      cases hcols : Word.count? r.first.col r.last.col with
      | none =>
        have hwidth : r.width = UInt64.size := (Word.count?_eq_none_iff hcol).mp hcols
        simp [hwidth]
      | some cols =>
        have hwidth : cols.toNat = r.width := (Word.count?_eq_some_iff hcol).mp hcols
        have hfewCols : r.width ≠ UInt64.size := hwidth ▸ Nat.ne_of_lt cols.toNat_lt_size
        simp [hheight, hwidth, hfewRows, hfewCols]

/-- A range that spans all words has at least as many cells as there are words. -/
theorem le_length_cells_of_spansAllWords (h : r.SpansAllWords) :
    UInt64.size ≤ r.cells.length := by
  obtain ⟨hempty, hall⟩ := h
  have hpos : 0 < r.height * r.width := Nat.pos_of_ne_zero fun hzero => by
    have hnone := length_cells_eq_zero_iff.mp ((length_cells r).trans hzero)
    rw [hempty] at hnone
    cases hnone
  rw [length_cells]
  rcases hall with hall | hall
  · rw [hall] at hpos ⊢
    exact Nat.le_mul_of_pos_right _ (Nat.pos_of_mul_pos_left hpos)
  · rw [hall] at hpos ⊢
    exact Nat.le_mul_of_pos_left _ (Nat.pos_of_mul_pos_right hpos)

theorem not_spansAllWords_of_length_le (h : r.cells.length ≤ maxSize) : ¬ r.SpansAllWords :=
  fun hall => absurd (Nat.le_trans (le_length_cells_of_spansAllWords hall) h) (by decide)

/-- As long as the number of cells is a word it is the size. -/
theorem size?_of_length_le (h : r.cells.length ≤ maxSize) : r.size? = some r.cells.length := by
  rw [size?_eq, if_neg (not_spansAllWords_of_length_le h), Nat.min_eq_left h]

theorem eq_min_of_size? {n : Nat} (h : r.size? = some n) : n = min r.cells.length maxSize := by
  rw [size?_eq] at h
  split at h
  · cases h
  · exact (Option.some.inj h).symm

/-- Up to the largest word, the size and the number of cells are under the same limits. -/
theorem size?_le_iff {limit n : Nat} (hlimit : limit < maxSize) (h : r.size? = some n) :
    n ≤ limit ↔ r.cells.length ≤ limit := by
  have hn := eq_min_of_size? h
  omega

/-- A size below a limit is the number of cells, and a range that cannot be counted has more of them. -/
theorem exists_size?_le_iff {limit : Nat} (hlimit : limit < maxSize) :
    (∃ n, r.size? = some n ∧ n ≤ limit) ↔ r.cells.length ≤ limit := by
  constructor
  · rintro ⟨n, hsize, hn⟩
    exact (size?_le_iff hlimit hsize).mp hn
  · intro h
    exact ⟨_, size?_of_length_le (Nat.le_of_lt (Nat.lt_of_le_of_lt h hlimit)), h⟩

end Range

end LessonGrid
