import LessonGrid.Toml.Number

/-!
# TOML documents

A document is a list of statements, one to a line: headers, which say to which table the following
lines belong, and assignments of values to paths of keys. `Document.ofText?` reads a document without
asking whether its statements go together; only tables in braces are checked for that, since their
entries are read at once.
-/

set_option autoImplicit false

namespace LessonGrid.Toml

/-- Whether two paths can both be given a value in one table: neither leads through the other. -/
def compatible (p q : Path) : Bool :=
  !(p.isPrefixOf q || q.isPrefixOf p)

/-- Whether the entries of a table go together. -/
def isConsistent : List (Path × Value) → Bool
  | [] => true
  | (p, _) :: rest => rest.all (fun entry => compatible p entry.1) && isConsistent rest

/-- The items of an array, read behind its opening bracket up to its closing one. Lines may end
anywhere between them, and a comma may follow the last one. -/
def items (item : Lexer Value) : Nat → Lexer (List Value)
  | 0, _ => none
  | fuel + 1, cs => do
    let cs ← skipLines? cs
    match cs with
    | ']' :: rest => some ([], rest)
    | cs =>
      let (value, cs) ← item cs
      let cs ← skipLines? cs
      match cs with
      | ',' :: cs => (items item fuel cs).map fun (values, rest) => (value :: values, rest)
      | ']' :: rest => some ([value], rest)
      | _ => none

/-- A path, an equals sign and a value. -/
def entry (item : Lexer Value) : Lexer (Path × Value) := fun cs => do
  let (keys, cs) ← path cs
  let '=' :: cs := cs | none
  let (value, cs) ← item (skipSpace cs)
  some ((keys, value), cs)

/-- The entries of a table in braces, read behind the opening one, of which there is at least one. -/
def entries (item : Lexer Value) : Nat → Lexer (List (Path × Value))
  | 0, _ => none
  | fuel + 1, cs => do
    let (first, cs) ← entry item cs
    match skipSpace cs with
    | ',' :: cs => (entries item fuel cs).map fun (more, rest) => (first :: more, rest)
    | '\x7d' :: rest => some ([first], rest)
    | _ => none

/-- A value that is neither an array nor a table. -/
def scalar : Lexer Value
  | '"' :: cs => (string ('"' :: cs)).map fun (s, rest) => (.text s, rest)
  | '\'' :: cs => (string ('\'' :: cs)).map fun (s, rest) => (.text s, rest)
  | 't' :: 'r' :: 'u' :: 'e' :: rest => some (.boolean true, rest)
  | 'f' :: 'a' :: 'l' :: 's' :: 'e' :: rest => some (.boolean false, rest)
  | cs =>
    match moment cs with
    | some (literal, rest) => some (.moment literal, rest)
    | none =>
      match float cs with
      | some (literal, rest) => some (.float literal, rest)
      | none => (integer cs).map fun (n, rest) => (.integer n, rest)

/-- A value in which arrays and tables stand at most the given number deep. -/
def value : Nat → Lexer Value
  | depth + 1, '[' :: cs =>
    (items (value depth) (cs.length + 1) cs).map fun (values, rest) => (.array values, rest)
  | depth + 1, '\x7b' :: cs =>
    match skipSpace cs with
    | '\x7d' :: rest => some (.table [], rest)
    | cs =>
      match entries (value depth) (cs.length + 1) cs with
      | some (found, rest) => if isConsistent found then some (.table found, rest) else none
      | none => none
  | _, cs => scalar cs

/-- A line of a document that says something. -/
inductive Statement where
  /-- The following assignments belong to a table. -/
  | header (path : Path)
  /-- The following assignments belong to a new table at the end of an array. -/
  | element (path : Path)
  | assignment (path : Path) (value : Value)
  deriving Repr, Inhabited

/-- A header of a table or of an element of an array, up to its closing brackets. -/
def header : Lexer Statement
  | '[' :: '[' :: cs =>
    match path cs with
    | some (keys, ']' :: ']' :: rest) => some (.element keys, rest)
    | _ => none
  | '[' :: cs =>
    match path cs with
    | some (keys, ']' :: rest) => some (.header keys, rest)
    | _ => none
  | _ => none

/-- The statement at the front of a text that starts neither with a line end nor with a comment. -/
def statement : Lexer Statement
  | '[' :: cs => header ('[' :: cs)
  | cs => (entry (value maxNesting) cs).map fun ((keys, v), rest) => (.assignment keys v, rest)

/-- The statements of a document, at most the given number of lines. -/
def statements : Nat → List Char → Option (List Statement)
  | 0, _ => none
  | fuel + 1, cs =>
    match skipSpace cs with
    | [] => some []
    | '#' :: rest =>
      match lineEnd? ('#' :: rest) with
      | some after => statements fuel after
      | none => none
    | rest =>
      match newline? rest with
      | some after => statements fuel after
      | none => do
        let (found, after) ← statement rest
        let after ← lineEnd? after
        let more ← statements fuel after
        some (found :: more)

/-- The statements of a document's text, which may start with a mark of its byte order. -/
def document? (text : String) : Option (List Statement) :=
  let cs := text.toList
  let body := if cs.head? = some '\uFEFF' then cs.drop 1 else cs
  statements (body.length + 1) body

end LessonGrid.Toml
