import LessonGrid.Formula.Fault
import LessonGrid.Decimal.Reading

/-!
# Scanning a formula

`Token.scan` cuts the body of a formula into tokens from left to right. Blanks separate tokens and
are dropped. A number takes as many digits as there are, and a point only when a digit follows it; a
word takes as many ASCII letters and digits as there are. A word is an address, or the name of a
function with its argument right behind it, or a fault.

Main statement: `length_le_of_scanToken` (a token takes its characters off the front).
-/

set_option autoImplicit false

namespace LessonGrid.Token

/-- The value of a number with the given digits before and after its point. -/
def numberValue (whole fraction : List Char) : Float :=
  (Decimal.ofDigits whole fraction).nearest

/-- A number at the front of a text that starts with a digit, and the text after it. -/
def scanNumber (cs : List Char) : Token × List Char :=
  let whole := cs.takeWhile Char.isDigit
  let rest := cs.dropWhile Char.isDigit
  match rest with
  | '.' :: after =>
    if (after.takeWhile Char.isDigit).isEmpty then (.number (numberValue whole []), rest)
    else
      (.number (numberValue whole (after.takeWhile Char.isDigit)), after.dropWhile Char.isDigit)
  | _ => (.number (numberValue whole []), rest)

/-- The argument of a call at the front of a text, and the text after it: an opening parenthesis,
an address, a colon, an address and a closing parenthesis, with nothing between them. -/
def scanArgument? : List Char → Option (Range × List Char)
  | '(' :: cs =>
    match cs.dropWhile Char.isAlphanum with
    | ':' :: ds =>
      match ds.dropWhile Char.isAlphanum with
      | ')' :: rest =>
        match Address.ofChars? (cs.takeWhile Char.isAlphanum),
            Address.ofChars? (ds.takeWhile Char.isAlphanum) with
        | some first, some last => some (⟨first, last⟩, rest)
        | _, _ => none
      | _ => none
    | _ => none
  | _ => none

/-- A word at the front of a text that starts with a letter, with the argument if it is the name of
a function, and the text after it. Letter case does not matter. -/
def scanWord (cs : List Char) : Except Fault (Token × List Char) :=
  let word := (cs.takeWhile Char.isAlphanum).map Char.toUpper
  let rest := cs.dropWhile Char.isAlphanum
  match Address.ofChars? word with
  | some a => .ok (.cell a, rest)
  | none =>
    match Aggregate.ofName? word with
    | none => .error (.unknownName word)
    | some f =>
      match scanArgument? rest with
      | none => .error (.malformedCall f)
      | some (range, rest) => .ok (.call f range, rest)

/-- The token of a single character. -/
def ofMark? : Char → Option Token
  | '(' => some .opening
  | ')' => some .closing
  | ':' => some .colon
  | '.' => some .point
  | c => (Operator.ofSign? c).map .operator

/-- The token at the front of a text that starts with the given character, which is not blank, and
the text after it. -/
def scanToken (c : Char) (cs : List Char) : Except Fault (Token × List Char) :=
  match ofMark? c with
  | some t => .ok (t, cs)
  | none =>
    if c.isDigit then .ok (scanNumber (c :: cs))
    else if c.isAlpha then scanWord (c :: cs)
    else .error (.unexpectedCharacter c)

/-! ## Tokens take characters off the front -/

theorem length_dropWhile_le (p : Char → Bool) (cs : List Char) :
    (cs.dropWhile p).length ≤ cs.length :=
  (List.dropWhile_sublist p).length_le

theorem length_le_of_scanNumber {c : Char} {cs : List Char} (hc : c.isDigit = true) :
    (scanNumber (c :: cs)).2.length ≤ cs.length := by
  have hrest : (c :: cs).dropWhile Char.isDigit = cs.dropWhile Char.isDigit :=
    List.dropWhile_cons_of_pos hc
  have hle := length_dropWhile_le Char.isDigit cs
  unfold scanNumber
  simp only [hrest]
  split
  · next after hafter =>
    rw [hafter] at hle
    have hle' := length_dropWhile_le Char.isDigit after
    simp only [List.length_cons] at hle
    split
    · simp only [hafter, List.length_cons]; omega
    · simp only; omega
  · exact hle

theorem length_lt_of_scanArgument? {cs rest : List Char} {r : Range}
    (h : scanArgument? cs = some (r, rest)) : rest.length < cs.length := by
  unfold scanArgument? at h
  split at h
  · next cs =>
    split at h
    · next ds hds =>
      split at h
      · next rest' hrest =>
        have h1 := length_dropWhile_le Char.isAlphanum cs
        have h2 := length_dropWhile_le Char.isAlphanum ds
        rw [hds] at h1
        rw [hrest] at h2
        simp only [List.length_cons] at h1 h2 ⊢
        split at h
        · cases h; omega
        · cases h
      · cases h
    · cases h
  · cases h

theorem length_le_of_scanWord {c : Char} {cs rest : List Char} {t : Token}
    (hc : c.isAlphanum = true) (h : scanWord (c :: cs) = .ok (t, rest)) :
    rest.length ≤ cs.length := by
  have hdrop : (c :: cs).dropWhile Char.isAlphanum = cs.dropWhile Char.isAlphanum :=
    List.dropWhile_cons_of_pos hc
  have hle := length_dropWhile_le Char.isAlphanum cs
  unfold scanWord at h
  simp only [hdrop] at h
  split at h
  · cases h; exact hle
  · split at h
    · cases h
    · split at h
      · cases h
      · next hargument =>
        cases h
        exact Nat.le_trans (Nat.le_of_lt (length_lt_of_scanArgument? hargument)) hle

/-- A token takes at least one character off the front of the text. -/
theorem length_le_of_scanToken {c : Char} {cs rest : List Char} {t : Token}
    (h : scanToken c cs = .ok (t, rest)) : rest.length ≤ cs.length := by
  unfold scanToken at h
  split at h
  · cases h; exact Nat.le_refl _
  · split at h
    · next hdigit =>
      have hle : (scanNumber (c :: cs)).2.length ≤ cs.length := length_le_of_scanNumber hdigit
      injection h with h
      rw [h] at hle
      exact hle
    · split at h
      · next halpha =>
        exact length_le_of_scanWord (by simp [Char.isAlphanum, halpha]) h
      · cases h

/-! ## The tokens of a text -/

/-- The tokens of a text, or the fault at the first place where there is none. -/
def scan : List Char → Except Fault (List Token)
  | [] => .ok []
  | c :: cs =>
    if isBlank c then scan cs
    else
      match h : scanToken c cs with
      | .error fault => .error fault
      | .ok (t, rest) =>
        have : rest.length ≤ cs.length := length_le_of_scanToken h
        match scan rest with
        | .error fault => .error fault
        | .ok ts => .ok (t :: ts)
termination_by cs => cs.length

end LessonGrid.Token
