import LessonGrid.Decimal.Reading

/-!
# Cell content

What the text of a cell is: a formula, a number, other text, or nothing. Only a text that starts
with an equals sign is a formula; a blank in front of the sign makes it text.
-/

set_option autoImplicit false

namespace LessonGrid

/-- A cell's text by what it means. Formulas keep their equals sign, and texts their blanks. -/
inductive Content where
  | empty
  | text (raw : String)
  | number (value : Float)
  | formula (raw : String)
  deriving DecidableEq, Repr, Inhabited

/-- The body of a formula, that is the text after its equals sign; other text is no formula. -/
def formulaBody? (raw : String) : Option (List Char) :=
  match raw.toList with
  | '=' :: body => some body
  | _ => none

namespace Content

/-- What a cell's text is. -/
def ofText (raw : String) : Content :=
  match formulaBody? raw with
  | some _ => .formula raw
  | none =>
    if isBlankText raw.toList then .empty
    else
      match finiteNumber? raw with
      | some x => .number x
      | none => .text raw

/-- The number that a content stands for in arithmetic; what is no number counts as zero. -/
def amount : Content → Float
  | number x => x
  | _ => 0

end Content

end LessonGrid
