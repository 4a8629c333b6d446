import LessonGrid.Text.Blank

/-!
# Fields of a line

A line of a lesson file holds fields with commas between them. A quotation mark opens a part in which
commas are ordinary characters and which the next mark closes; within it, two marks stand for one. A
field with no quoted part loses the blanks around it. `joined` writes fields so that `split` reads
them back.
-/

set_option autoImplicit false

namespace LessonGrid.Fields

/-- A field from its characters, the last one first. A field with a quoted part keeps its blanks. -/
def close (quoted : Bool) (reversed : List Char) : List Char :=
  if quoted then reversed.reverse else trim reversed.reverse

/-- The fields of the rest of a line: whether it starts inside a quoted part, whether the field it
starts in has had one, and the characters of that field so far, the last one first. -/
def splitFrom (inside quoted : Bool) (reversed : List Char) : List Char → List (List Char)
  | [] => [close quoted reversed]
  | '"' :: cs =>
    if inside then
      match cs with
      | '"' :: cs => splitFrom true quoted ('"' :: reversed) cs
      | cs => splitFrom false quoted reversed cs
    else splitFrom true true reversed cs
  | ',' :: cs =>
    if inside then splitFrom true quoted (',' :: reversed) cs
    else close quoted reversed :: splitFrom false false [] cs
  | c :: cs => splitFrom inside quoted (c :: reversed) cs

/-- The fields of a line. -/
def split (line : List Char) : List (List Char) :=
  splitFrom false false [] line

/-- A field with every quotation mark written twice. -/
def doubled : List Char → List Char
  | [] => []
  | '"' :: cs => '"' :: '"' :: doubled cs
  | c :: cs => c :: doubled cs

/-- Whether a field has to be quoted: it holds a comma or a quotation mark, or blanks around it. -/
def needsQuotes (field : List Char) : Bool :=
  field.contains ',' || field.contains '"' || trim field != field

/-- A field as written in a line. -/
def quote (field : List Char) : List Char :=
  if needsQuotes field then '"' :: doubled field ++ ['"'] else field

/-- The line of some fields. -/
def joined (fields : List (List Char)) : List Char :=
  [','].intercalate (fields.map quote)

end LessonGrid.Fields
