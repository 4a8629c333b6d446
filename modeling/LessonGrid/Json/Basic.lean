/-!
# JSON values

A JSON document as a tree. Numbers are told apart by whether they are written as an integer; the
value of another number is of no use here and is not kept.
-/

set_option autoImplicit false

namespace LessonGrid

/-- A JSON value; the members of an object in their order. -/
inductive Json where
  | null
  | bool (b : Bool)
  | integer (n : Int)
  | fraction
  | string (s : String)
  | array (items : List Json)
  | object (members : List (String × Json))
  deriving Repr, Inhabited

namespace Json

/-- A string's text. -/
def string? : Json → Option String
  | string s => some s
  | _ => none

/-- The word that an integer stands for, when it is not negative and not too large. -/
def word? : Json → Option UInt64
  | integer (.ofNat n) => if n < UInt64.size then some n.toUInt64 else none
  | _ => none

end Json

end LessonGrid
