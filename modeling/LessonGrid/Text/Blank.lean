/-!
# Blank characters

Which characters are white space, and the text that is left when the white space at both ends is
dropped. Main statement: `trim_eq_nil_iff` (trimming leaves nothing exactly of a text of blanks).
-/

set_option autoImplicit false

namespace LessonGrid

/-- A character is blank when it has the Unicode property White_Space. The property holds for
twenty-five characters, and for none outside the planes listed here. -/
def isBlank (c : Char) : Bool :=
  let n := c.toNat
  (9 ≤ n && n ≤ 13) || n == 0x20 || n == 0x85 || n == 0xA0 || n == 0x1680 ||
    (0x2000 ≤ n && n ≤ 0x200A) || n == 0x2028 || n == 0x2029 || n == 0x202F || n == 0x205F ||
    n == 0x3000

/-- The text without the blanks it starts with. -/
def trimLeft (cs : List Char) : List Char :=
  cs.dropWhile isBlank

/-- The text without the blanks it ends with. -/
def trimRight (cs : List Char) : List Char :=
  (cs.reverse.dropWhile isBlank).reverse

/-- The text without the blanks at either end. -/
def trim (cs : List Char) : List Char :=
  trimRight (trimLeft cs)

/-- A text is blank when nothing is left of it after trimming, that is when it holds only
blanks. -/
def isBlankText (cs : List Char) : Bool :=
  cs.all isBlank

theorem trimLeft_of_isBlank {c : Char} {cs : List Char} (h : isBlank c = true) :
    trimLeft (c :: cs) = trimLeft cs := by
  simp [trimLeft, h]

theorem trimLeft_of_not_isBlank {c : Char} {cs : List Char} (h : isBlank c = false) :
    trimLeft (c :: cs) = c :: cs := by
  simp [trimLeft, h]

theorem trimLeft_eq_nil_iff {cs : List Char} : trimLeft cs = [] ↔ isBlankText cs = true := by
  induction cs with
  | nil => simp [trimLeft, isBlankText]
  | cons c cs ih =>
    cases hc : isBlank c with
    | true => rw [trimLeft_of_isBlank hc, ih]; simp [isBlankText, hc]
    | false => rw [trimLeft_of_not_isBlank hc]; simp [isBlankText, hc]

/-- What is left after dropping the blanks in front starts with no blank. -/
theorem isBlank_of_trimLeft {c : Char} {cs ds : List Char} (h : trimLeft cs = c :: ds) :
    isBlank c = false := by
  induction cs with
  | nil => simp [trimLeft] at h
  | cons d es ih =>
    cases hd : isBlank d with
    | true => rw [trimLeft_of_isBlank hd] at h; exact ih h
    | false =>
      rw [trimLeft_of_not_isBlank hd] at h
      exact (List.cons.inj h).1 ▸ hd

/-- What is left after trimming ends with no blank. -/
theorem isBlank_of_getLast?_trim {c : Char} {cs : List Char} (h : (trim cs).getLast? = some c) :
    isBlank c = false := by
  rw [trim, trimRight, List.getLast?_reverse] at h
  have hhead := List.head?_dropWhile_not isBlank (trimLeft cs).reverse
  rwa [h] at hhead

/-- Trimming only leaves characters out. -/
theorem trim_sublist (cs : List Char) : (trim cs).Sublist cs := by
  have hright : (trimRight (trimLeft cs)).Sublist (trimLeft cs) := by
    rw [trimRight, List.reverse_sublist.symm, List.reverse_reverse]
    exact List.dropWhile_sublist isBlank
  exact hright.trans (List.dropWhile_sublist isBlank)

/-- A text in which no character is blank has nothing to trim. -/
theorem trim_eq_self {cs : List Char} (h : ∀ c ∈ cs, isBlank c = false) : trim cs = cs := by
  have hleft : ∀ ds : List Char, (∀ c ∈ ds, isBlank c = false) → trimLeft ds = ds := by
    intro ds hds
    cases ds with
    | nil => rfl
    | cons d ds => exact trimLeft_of_not_isBlank (hds d List.mem_cons_self)
  have hright : trimLeft cs.reverse = cs.reverse :=
    hleft cs.reverse fun c hc => h c (List.mem_reverse.mp hc)
  rw [trim, hleft cs h, trimRight, ← trimLeft, hright, List.reverse_reverse]

/-- Trimming leaves nothing exactly of a blank text. -/
theorem trim_eq_nil_iff {cs : List Char} : trim cs = [] ↔ isBlankText cs = true := by
  rw [← trimLeft_eq_nil_iff]
  constructor
  · intro h
    cases hl : trimLeft cs with
    | nil => rfl
    | cons c ds =>
      have hall : isBlankText (c :: ds).reverse = true := by
        apply trimLeft_eq_nil_iff.mp
        rw [trim, trimRight, hl, List.reverse_eq_nil_iff] at h
        exact h
      have hc : isBlank c = true := by simpa [isBlankText] using List.all_eq_true.mp hall c (by simp)
      rw [isBlank_of_trimLeft hl] at hc
      exact absurd hc (by decide)
  · intro h
    simp [trim, trimRight, h]

end LessonGrid
