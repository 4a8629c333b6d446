import LessonGrid.Toml.Text

/-!
# TOML numbers and moments

Integers of 64 bits in four bases, floating-point numbers, and dates and times. Dates and times are
checked and kept as written.
-/

set_option autoImplicit false

namespace LessonGrid.Toml

/-- The largest integer. -/
def maxInteger : Nat :=
  UInt64.size / 2 - 1

/-- A hexadecimal digit. -/
def isHexDigit (c : Char) : Bool :=
  (hexValue? c).isSome

/-- An octal digit. -/
def isOctalDigit (c : Char) : Bool :=
  '0' ≤ c && c ≤ '7'

/-- A binary digit. -/
def isBinaryDigit (c : Char) : Bool :=
  c = '0' || c = '1'

/-- The digits of a decimal integer, which start with zero only when there is no other digit. -/
def decimalDigits : Lexer (List Char)
  | '0' :: cs => some (['0'], cs)
  | cs => digits Char.isDigit cs

/-- An integer of another base than ten, read behind the mark of its base. -/
def basedInteger (base : Nat) (isDigit : Char → Bool) : Lexer Int := fun cs =>
  match digits isDigit cs with
  | none => none
  | some (ds, rest) =>
    let n := (ds.filterMap hexValue?).foldl (fun n d => base * n + d) 0
    if n ≤ maxInteger then some (n, rest) else none

/-- An integer. Only decimal ones have signs. -/
def integer : Lexer Int
  | '0' :: 'x' :: cs => basedInteger 16 isHexDigit cs
  | '0' :: 'o' :: cs => basedInteger 8 isOctalDigit cs
  | '0' :: 'b' :: cs => basedInteger 2 isBinaryDigit cs
  | cs =>
    let (negative, body) := splitSign cs
    match decimalDigits body with
    | none => none
    | some (ds, rest) =>
      let n := Numeral.value ds
      if negative then if n ≤ maxInteger + 1 then some (-(n : Int), rest) else none
      else if n ≤ maxInteger then some (n, rest) else none

/-- The characters of a power of ten: its letter, a sign, and digits. -/
def powerPart : Lexer (List Char)
  | [] => none
  | e :: cs =>
    if e = 'e' || e = 'E' then
      let (negative, body) := splitSign cs
      (digits Char.isDigit body).map fun (ds, rest) =>
        ('e' :: (if negative then ['-'] else []) ++ ds, rest)
    else none

/-- The characters of a fraction, a power of ten, or both. -/
def fractionPart : Lexer (List Char)
  | '.' :: cs =>
    match digits Char.isDigit cs with
    | none => none
    | some (ds, rest) =>
      match powerPart rest with
      | some (power, after) => some ('.' :: ds ++ power, after)
      | none => some ('.' :: ds, rest)
  | cs => powerPart cs

/-- A floating-point number: infinity and not-a-number by their words, and any other with a fraction
or a power of ten, and not too large to be finite. -/
def float : Lexer String := fun cs =>
  let (negative, body) := splitSign cs
  let sign := if negative then ['-'] else []
  match body with
  | 'i' :: 'n' :: 'f' :: rest => some (String.ofList (sign ++ ['i', 'n', 'f']), rest)
  | 'n' :: 'a' :: 'n' :: rest => some (String.ofList (sign ++ ['n', 'a', 'n']), rest)
  | _ =>
    match decimalDigits body with
    | none => none
    | some (whole, rest) =>
      match fractionPart rest with
      | none => none
      | some (fraction, after) =>
        let literal := String.ofList (whole ++ fraction)
        if (finiteNumber? literal).isSome || negative then
          some (String.ofList sign ++ literal, after)
        else none

/-! ## Dates and times -/

/-- The number of days of a month. -/
def daysOf (year month : Nat) : Nat :=
  if month = 2 then
    if year % 4 = 0 && (year % 100 ≠ 0 || year % 400 = 0) then 29 else 28
  else if month = 4 || month = 6 || month = 9 || month = 11 then 30
  else 31

/-- The text after a date at the front: year, month and day with dashes between them. -/
def date? (cs : List Char) : Option (List Char) := do
  let (year, cs) ← fixedDigits 4 cs
  let '-' :: cs := cs | none
  let (month, cs) ← fixedDigits 2 cs
  let '-' :: cs := cs | none
  let (day, cs) ← fixedDigits 2 cs
  if 1 ≤ month && month ≤ 12 && 1 ≤ day && day ≤ daysOf year month then some cs else none

/-- The text after a time of day at the front: hour, minute and second with colons between them, and
a fraction of a second. -/
def time? (cs : List Char) : Option (List Char) := do
  let (hour, cs) ← fixedDigits 2 cs
  let ':' :: cs := cs | none
  let (minute, cs) ← fixedDigits 2 cs
  let ':' :: cs := cs | none
  let (second, cs) ← fixedDigits 2 cs
  if 24 ≤ hour || 60 ≤ minute || 60 < second then none
  else
    match cs with
    | '.' :: after =>
      if (after.takeWhile Char.isDigit).isEmpty then none
      else some (after.dropWhile Char.isDigit)
    | cs => some cs

/-- The text after an offset from universal time at the front. -/
def offset? : List Char → Option (List Char)
  | [] => none
  | c :: cs =>
    if c = 'Z' || c = 'z' then some cs
    else if c = '+' || c = '-' then do
      let (hour, cs) ← fixedDigits 2 cs
      let ':' :: cs := cs | none
      let (minute, cs) ← fixedDigits 2 cs
      if hour < 24 && minute < 60 then some cs else none
    else none

/-- Whether a character can stand between a date and a time. -/
def isTimeMark (c : Char) : Bool :=
  c = 'T' || c = 't' || c = ' '

/-- The text after a date, a date with a time, or a time at the front. -/
def moment? (cs : List Char) : Option (List Char) :=
  match date? cs with
  | none => time? cs
  | some [] => some []
  | some (mark :: after) =>
    if isTimeMark mark then
      match time? after with
      | none => some (mark :: after)
      | some rest => some ((offset? rest).getD rest)
    else some (mark :: after)

/-- A date, a time or both, as written. -/
def moment : Lexer String := fun cs =>
  match moment? cs with
  | none => none
  | some rest => some (String.ofList (cs.take (cs.length - rest.length)), rest)

end LessonGrid.Toml
