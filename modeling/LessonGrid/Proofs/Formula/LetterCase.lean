import LessonGrid.Formula.Parse
import LessonGrid.Proofs.Formula.Words

/-!
# Letter case in formulas

The scan looks at letters in three places: where a word ends, in the word itself, which it puts in
capitals first, and in the addresses of an argument, whose column is looked up in either case. None of
them tells a letter from its capital, and a letter that is no part of a word belongs to the text left
over. So a formula in capitals has the tokens of the formula, or the fault of it.

Main statements: `Token.scan_map_toUpper` and `Tree.ofBody_map_toUpper`.
-/

set_option autoImplicit false

namespace LessonGrid

variable {c d : Char} {cs : List Char}

/-! ## Classes of characters -/

/-- Nothing but the character itself becomes a character that is no letter. -/
theorem toUpper_eq_iff (hd : d.isAlpha = false) : c.toUpper = d ↔ c = d := by
  by_cases hlower : c.isLower = true
  · -- A small letter stays a letter, so neither side holds.
    have halpha : c.isAlpha = true := by simp [Char.isAlpha, hlower]
    constructor
    · rintro rfl
      rw [Char.isAlpha_toUpper_eq_isAlpha, halpha] at hd
      cases hd
    · rintro rfl
      rw [halpha] at hd
      cases hd
  · rw [Char.toUpper_eq_of_not_isLower hlower]

/-- So it is the same whether a mark is looked for in a text or in the text in capitals. -/
theorem mark_or_ne (hd : d.isAlpha = false) (c : Char) :
    (c = d ∧ c.toUpper = d) ∨ (c ≠ d ∧ c.toUpper ≠ d) := by
  by_cases h : c = d
  · exact .inl ⟨h, (toUpper_eq_iff hd).mpr h⟩
  · exact .inr ⟨h, fun hupper => h ((toUpper_eq_iff hd).mp hupper)⟩

theorem isDigit_toUpper (c : Char) : c.toUpper.isDigit = c.isDigit := by
  by_cases hdigit : c.toUpper.isDigit = true ∨ c.isDigit = true
  · rw [toUpper_eq_of_isDigit hdigit]
  · simp only [not_or, Bool.not_eq_true] at hdigit
    rw [hdigit.1, hdigit.2]

theorem isBlank_toUpper (c : Char) : isBlank c.toUpper = isBlank c := by
  by_cases hlower : c.isLower = true
  · have halphanum : c.isAlphanum = true := isAlphanum_of_isAlpha (by simp [Char.isAlpha, hlower])
    rw [isBlank_of_isAlphanum halphanum,
      isBlank_of_isAlphanum ((isAlphanum_toUpper c).trans halphanum)]
  · rw [Char.toUpper_eq_of_not_isLower hlower]

section Classes

variable {p : Char → Bool} (hp : ∀ c, p c.toUpper = p c)

include hp

/-- Where a class of characters has letters in both cases, capitals are of the class as far as the
letters are. -/
theorem takeWhile_map_toUpper (cs : List Char) :
    (cs.map Char.toUpper).takeWhile p = (cs.takeWhile p).map Char.toUpper := by
  rw [List.takeWhile_map, funext hp (f := p ∘ Char.toUpper)]

theorem dropWhile_map_toUpper (cs : List Char) :
    (cs.map Char.toUpper).dropWhile p = (cs.dropWhile p).map Char.toUpper := by
  rw [List.dropWhile_map, funext hp (f := p ∘ Char.toUpper)]

end Classes

/-! ## Addresses -/

theorem trim_map_toUpper (cs : List Char) :
    trim (cs.map Char.toUpper) = (trim cs).map Char.toUpper := by
  simp only [trim, trimRight, trimLeft, dropWhile_map_toUpper isBlank_toUpper, ← List.map_reverse]

/-- A numeral has no letters, and a text in capitals is a numeral only if it is one as it stands. -/
theorem natural?_map_toUpper (cs : List Char) :
    Numeral.natural? (cs.map Char.toUpper) = Numeral.natural? cs := by
  have hdigits : (cs.map Char.toUpper).all Char.isDigit = cs.all Char.isDigit := by
    rw [List.all_map, funext isDigit_toUpper (f := Char.isDigit ∘ Char.toUpper)]
  by_cases hall : cs.all Char.isDigit = true
  · rw [map_toUpper_of_isDigit (List.all_eq_true.mp hall)]
  · rw [Numeral.natural?, Numeral.natural?, hdigits, if_neg fun h => hall h.2,
      if_neg fun h => hall h.2]

theorem positive?_map_toUpper (cs : List Char) :
    Numeral.positive? (cs.map Char.toUpper) = Numeral.positive? cs := by
  cases cs with
  | nil => rfl
  | cons c cs =>
    have hzero : c.toUpper = '0' ↔ c = '0' := toUpper_eq_iff rfl
    rw [List.map_cons, Numeral.positive?, ← List.map_cons, natural?_map_toUpper, Numeral.positive?]
    simp only [hzero]

theorem Column.ofLetter?_toUpper (l : Char) : ofLetter? l.toUpper = ofLetter? l := by
  rw [ofLetter?, Char.toUpper_toUpper_eq_toUpper, ofLetter?]

theorem Address.ofChars?_map_toUpper (cs : List Char) :
    ofChars? (cs.map Char.toUpper) = ofChars? cs := by
  rw [ofChars?, trim_map_toUpper, ofChars?]
  cases trim cs with
  | nil => rfl
  | cons l numeral =>
    rw [List.map_cons, ofTrimmed?, Column.ofLetter?_toUpper, positive?_map_toUpper, ofTrimmed?]

/-! ## Tokens -/

namespace Token

theorem ofMark?_toUpper (c : Char) : ofMark? c.toUpper = ofMark? c := by
  by_cases hlower : c.isLower = true
  · have halphanum : c.isAlphanum = true := isAlphanum_of_isAlpha (by simp [Char.isAlpha, hlower])
    rw [ofMark?_of_isAlphanum halphanum,
      ofMark?_of_isAlphanum ((isAlphanum_toUpper c).trans halphanum)]
  · rw [Char.toUpper_eq_of_not_isLower hlower]

theorem scanNumber_map_toUpper (cs : List Char) : scanNumber (cs.map Char.toUpper) =
    ((scanNumber cs).1, (scanNumber cs).2.map Char.toUpper) := by
  have hdigits : ∀ ds : List Char,
      (ds.takeWhile Char.isDigit).map Char.toUpper = ds.takeWhile Char.isDigit :=
    fun ds => map_toUpper_of_isDigit fun _ => List.mem_takeWhile_imp
  simp only [scanNumber, takeWhile_map_toUpper isDigit_toUpper,
    dropWhile_map_toUpper isDigit_toUpper, hdigits]
  cases cs.dropWhile Char.isDigit with
  | nil => rfl
  | cons c after =>
    rcases mark_or_ne (d := '.') rfl c with ⟨rfl, hpoint⟩ | ⟨hpoint, hpoint'⟩
    · simp only [List.map_cons, hpoint, takeWhile_map_toUpper isDigit_toUpper,
        dropWhile_map_toUpper isDigit_toUpper, hdigits]
      split <;> rfl
    · simp [hpoint, hpoint']

/-- The addresses of an argument may be in either case, and the marks between them have none. -/
theorem scanArgument?_map_toUpper (cs : List Char) : scanArgument? (cs.map Char.toUpper) =
    (scanArgument? cs).map fun argument => (argument.1, argument.2.map Char.toUpper) := by
  cases cs with
  | nil => rfl
  | cons c cs =>
    rcases mark_or_ne (d := '(') rfl c with ⟨rfl, hopening⟩ | ⟨hopening, hopening'⟩
    · simp only [List.map_cons, hopening, scanArgument?, takeWhile_map_toUpper isAlphanum_toUpper,
        dropWhile_map_toUpper isAlphanum_toUpper, Address.ofChars?_map_toUpper]
      cases cs.dropWhile Char.isAlphanum with
      | nil => rfl
      | cons c' ds =>
        rcases mark_or_ne (d := ':') rfl c' with ⟨rfl, hcolon⟩ | ⟨hcolon, hcolon'⟩
        · simp only [List.map_cons, hcolon, takeWhile_map_toUpper isAlphanum_toUpper,
            dropWhile_map_toUpper isAlphanum_toUpper, Address.ofChars?_map_toUpper]
          cases ds.dropWhile Char.isAlphanum with
          | nil => rfl
          | cons c'' rest =>
            rcases mark_or_ne (d := ')') rfl c'' with ⟨rfl, hclosing⟩ | ⟨hclosing, hclosing'⟩
            · simp only [List.map_cons, hclosing]
              split <;> rfl
            · simp [hclosing, hclosing']
        · simp [hcolon, hcolon']
    · simp [scanArgument?, hopening, hopening']

/-- What is taken off a text is taken off the text in capitals, and the rest is left in capitals. -/
def capitalRest (taken : Token × List Char) : Token × List Char :=
  (taken.1, taken.2.map Char.toUpper)

theorem scanWord_map_toUpper (cs : List Char) :
    scanWord (cs.map Char.toUpper) = (scanWord cs).map capitalRest := by
  have hword : ((cs.takeWhile Char.isAlphanum).map Char.toUpper).map Char.toUpper =
      (cs.takeWhile Char.isAlphanum).map Char.toUpper := by
    simp [Char.toUpper_toUpper_eq_toUpper]
  simp only [scanWord, takeWhile_map_toUpper isAlphanum_toUpper,
    dropWhile_map_toUpper isAlphanum_toUpper, hword, scanArgument?_map_toUpper]
  cases Address.ofChars? ((cs.takeWhile Char.isAlphanum).map Char.toUpper) with
  | some a => rfl
  | none =>
    cases Aggregate.ofName? ((cs.takeWhile Char.isAlphanum).map Char.toUpper) with
    | none => rfl
    | some f => cases scanArgument? (cs.dropWhile Char.isAlphanum) <;> rfl

/-- A character that starts no token is no letter, so the fault is the same too. -/
theorem scanToken_toUpper (c : Char) (cs : List Char) :
    scanToken c.toUpper (cs.map Char.toUpper) = (scanToken c cs).map capitalRest := by
  simp only [scanToken, ofMark?_toUpper, isDigit_toUpper, Char.isAlpha_toUpper_eq_isAlpha,
    ← List.map_cons, scanWord_map_toUpper, scanNumber_map_toUpper]
  cases ofMark? c with
  | some t => rfl
  | none =>
    by_cases hdigit : c.isDigit = true
    · simp only [hdigit, if_true]
      rfl
    · by_cases halpha : c.isAlpha = true
      · simp only [hdigit, halpha, if_true]
        rfl
      · have hlower : ¬ c.isLower = true := fun hlower => halpha (by simp [Char.isAlpha, hlower])
        simp only [hdigit, halpha, Char.toUpper_eq_of_not_isLower hlower]
        rfl

theorem scan_map_toUpper_of_ok {rest : List Char} {t : Token} (hblank : ¬ isBlank c = true)
    (htoken : scanToken c cs = .ok (t, rest)) (ih : scan (rest.map Char.toUpper) = scan rest) :
    scan ((c :: cs).map Char.toUpper) = scan (c :: cs) := by
  have hupper : scanToken c.toUpper (cs.map Char.toUpper) = .ok (t, rest.map Char.toUpper) := by
    rw [scanToken_toUpper, htoken]
    rfl
  rw [scan_of_scanToken_ok hblank htoken, List.map_cons,
    scan_of_scanToken_ok (by rwa [isBlank_toUpper]) hupper, ih]

/-- A text in capitals has the tokens of the text, or its fault. -/
theorem scan_map_toUpper (cs : List Char) : scan (cs.map Char.toUpper) = scan cs := by
  induction cs using scan.induct with
  | case1 => rfl
  | case2 c cs hblank ih =>
    rw [scan_of_blank cs hblank, List.map_cons,
      scan_of_blank _ ((isBlank_toUpper c).trans hblank), ih]
  | case3 c cs hblank fault htoken =>
    have hupper : scanToken c.toUpper (cs.map Char.toUpper) = .error fault := by
      rw [scanToken_toUpper, htoken]
      rfl
    rw [scan_of_scanToken_error hblank htoken, List.map_cons,
      scan_of_scanToken_error (by rwa [isBlank_toUpper]) hupper]
  | case4 c cs hblank t rest htoken _ fault _ ih => exact scan_map_toUpper_of_ok hblank htoken ih
  | case5 c cs hblank t rest htoken _ ts _ ih => exact scan_map_toUpper_of_ok hblank htoken ih

end Token

theorem Tree.ofBody_map_toUpper (body : List Char) :
    ofBody (body.map Char.toUpper) = ofBody body := by
  simp only [ofBody, Token.scan_map_toUpper]

end LessonGrid
