import LessonGrid.Formula.Scan

/-!
# Scanning step by step

What `Token.scan` makes of the first character of a text: a blank is passed by, and anything else
starts a token, whose text is taken off before the scan goes on, or is the fault of the whole.

Main statement: `kind_of_scan_error` (scanning fails only where the text is outside the language).
-/

set_option autoImplicit false

namespace LessonGrid.Token

theorem scan_nil : scan [] = .ok [] := by
  rw [scan.eq_def]

theorem scan_of_blank {c : Char} (cs : List Char) (h : isBlank c = true) :
    scan (c :: cs) = scan cs := by
  rw [scan.eq_def]
  exact if_pos h

theorem scan_of_scanToken_error {c : Char} {cs : List Char} {fault : Fault}
    (hblank : ¬ isBlank c = true) (h : scanToken c cs = .error fault) :
    scan (c :: cs) = .error fault := by
  rw [scan.eq_def]
  simp only
  rw [if_neg hblank]
  split
  · next fault' h' =>
    rw [h] at h'
    cases h'
    rfl
  · next t rest h' =>
    rw [h] at h'
    cases h'

theorem scan_of_scanToken_ok {c : Char} {cs rest : List Char} {t : Token}
    (hblank : ¬ isBlank c = true) (h : scanToken c cs = .ok (t, rest)) :
    scan (c :: cs) = (scan rest).map (t :: ·) := by
  rw [scan.eq_def]
  simp only
  rw [if_neg hblank]
  split
  · next fault h' =>
    rw [h] at h'
    cases h'
  · next t' rest' h' =>
    rw [h] at h'
    cases h'
    cases scan rest <;> rfl

/-! ## Faults -/

theorem kind_of_scanWord_error {cs : List Char} {fault : Fault}
    (h : scanWord cs = .error fault) : fault.kind = .language := by
  unfold scanWord at h
  simp only at h
  split at h
  · cases h
  · split at h
    · cases h; rfl
    · split at h
      · cases h; rfl
      · cases h

theorem kind_of_scanToken_error {c : Char} {cs : List Char} {fault : Fault}
    (h : scanToken c cs = .error fault) : fault.kind = .language := by
  unfold scanToken at h
  split at h
  · cases h
  · split at h
    · cases h
    · split at h
      · exact kind_of_scanWord_error h
      · cases h; rfl

/-- A text that cannot be cut into tokens is outside the language. -/
theorem kind_of_scan_error {cs : List Char} {fault : Fault} (h : scan cs = .error fault) :
    fault.kind = .language := by
  induction cs using scan.induct generalizing fault with
  | case1 =>
    rw [scan_nil] at h
    cases h
  | case2 c cs hblank ih =>
    rw [scan_of_blank cs hblank] at h
    exact ih h
  | case3 c cs hblank fault' htoken =>
    rw [scan_of_scanToken_error hblank htoken] at h
    cases h
    exact kind_of_scanToken_error htoken
  | case4 c cs hblank t rest htoken hle fault' hrest ih =>
    rw [scan_of_scanToken_ok hblank htoken, hrest] at h
    cases h
    exact ih hrest
  | case5 c cs hblank t rest htoken hle ts hrest ih =>
    rw [scan_of_scanToken_ok hblank htoken, hrest] at h
    cases h

end LessonGrid.Token
