import LessonGrid.Decimal.Reading

/-!
# TOML values and lexemes

The values of a TOML document, and the readers of its smallest parts. A reader takes what it reads off
the front of a text and gives what is left, or nothing when the text does not start with it.
-/

set_option autoImplicit false

namespace LessonGrid.Toml

/-- How many arrays and tables may stand in one another, whether as values or by the keys of a
single path. -/
def maxNesting : Nat :=
  79

/-- A key with the keys of the tables around it, the outermost first. -/
abbrev Path := List String

/-- A value. A table in braces is kept as its entries, under paths of keys. -/
inductive Value where
  | boolean (b : Bool)
  | integer (n : Int)
  | float (literal : String)
  | moment (literal : String)
  | text (s : String)
  | array (items : List Value)
  | table (entries : List (Path × Value))
  deriving Repr, Inhabited

/-- Takes a part off the front of a text. -/
abbrev Lexer (α : Type) := List Char → Option (α × List Char)

/-! ## Blanks, line ends and comments -/

/-- Blanks within a line. -/
def isSpace (c : Char) : Bool :=
  c = ' ' || c = '\t'

/-- The text after the blanks at its front. -/
def skipSpace (cs : List Char) : List Char :=
  cs.dropWhile isSpace

/-- Characters that may stand in a comment: all but the control characters other than the tab. -/
def isPrintable (c : Char) : Bool :=
  c = '\t' || (0x20 ≤ c.toNat && c.toNat ≠ 0x7F)

/-- The text after a line end at its front. -/
def newline? : List Char → Option (List Char)
  | '\n' :: cs => some cs
  | '\r' :: '\n' :: cs => some cs
  | _ => none

/-- The text after a comment at its front, if there is one. -/
def skipComment : List Char → List Char
  | '#' :: cs => cs.dropWhile isPrintable
  | cs => cs

/-- The text after the rest of a line, which may hold a comment and nothing else. The last line need
not have an end. -/
def lineEnd? (cs : List Char) : Option (List Char) :=
  match skipComment (skipSpace cs) with
  | [] => some []
  | rest => newline? rest

/-- The text after all blanks, line ends and comments at its front. A comment has to end with its
line. -/
def skipLines? (cs : List Char) : Option (List Char) :=
  go (cs.length + 1) cs
where
  /-- Skips at most the given number of lines. -/
  go : Nat → List Char → Option (List Char)
    | 0, cs => some cs
    | fuel + 1, cs =>
      match skipSpace cs with
      | '#' :: rest =>
        match newline? (skipComment ('#' :: rest)) with
        | some after => go fuel after
        | none => none
      | rest =>
        match newline? rest with
        | some after => go fuel after
        | none => if rest.head? = some '\r' then none else some rest

/-! ## Digits -/

/-- The digits at the front of a text, with single underscores between them, without the underscores.
There has to be a digit, and an underscore has to stand between two. -/
def digits (isDigit : Char → Bool) : Lexer (List Char)
  | [] => none
  | c :: cs =>
    if isDigit c then
      match cs with
      | '_' :: rest =>
        match digits isDigit rest with
        | some (ds, after) => some (c :: ds, after)
        | none => none
      | rest =>
        match digits isDigit rest with
        | some (ds, after) => some (c :: ds, after)
        | none => some ([c], rest)
    else none

/-- Exactly the given number of decimal digits. -/
def fixedDigits (count : Nat) : Lexer Nat := fun cs =>
  let ds := cs.take count
  if ds.length = count && ds.all Char.isDigit then some (Numeral.value ds, cs.drop count) else none

end LessonGrid.Toml
