import LessonGrid.Toml.Value

/-!
# TOML strings and keys

Strings between quotation marks, in which a backslash starts an escape, and between apostrophes, in
which it does not; both over one line, or over several between threefold marks. A key is a bare word
or a string on one line, and a path is keys with points between them, at most `maxNesting` of them.
-/

set_option autoImplicit false

namespace LessonGrid.Toml

/-- The value of a hexadecimal digit. -/
def hexValue? (c : Char) : Option Nat :=
  if c.isDigit then some (c.toNat - '0'.toNat)
  else if 'a' ≤ c && c ≤ 'f' then some (c.toNat - 'a'.toNat + 10)
  else if 'A' ≤ c && c ≤ 'F' then some (c.toNat - 'A'.toNat + 10)
  else none

/-- The character of a number of exactly `count` hexadecimal digits. -/
def codePoint (count : Nat) : Lexer Char := fun cs =>
  let ds := cs.take count
  if ds.length = count then
    match ds.mapM hexValue? with
    | some values =>
      let n := values.foldl (fun n d => 16 * n + d) 0
      if n.isValidChar then some (Char.ofNat n, cs.drop count) else none
    | none => none
  else none

/-- The character of an escape, read behind its backslash. -/
def escape : Lexer Char
  | 'b' :: cs => some ('\x08', cs)
  | 't' :: cs => some ('\t', cs)
  | 'n' :: cs => some ('\n', cs)
  | 'f' :: cs => some ('\x0c', cs)
  | 'r' :: cs => some ('\r', cs)
  | '"' :: cs => some ('"', cs)
  | '\\' :: cs => some ('\\', cs)
  | 'u' :: cs => codePoint 4 cs
  | 'U' :: cs => codePoint 8 cs
  | _ => none

/-- The line end behind a backslash, blanks in front of it, and all blanks and line ends after it. -/
def foldedLines? (cs : List Char) : Option (List Char) :=
  match newline? (skipSpace cs) with
  | none => none
  | some rest => some (skip (rest.length + 1) rest)
where
  /-- Skips blanks and line ends, at most the given number of them. -/
  skip : Nat → List Char → List Char
    | 0, cs => cs
    | fuel + 1, cs =>
      match newline? (skipSpace cs) with
      | some rest => skip fuel rest
      | none => skipSpace cs

/-- The rest of a string on one line, up to the mark that closes it. -/
def lineString (mark : Char) (escapes : Bool) : Nat → Lexer (List Char)
  | 0, _ => none
  | _ + 1, [] => none
  | fuel + 1, c :: cs =>
    if c = mark then some ([], cs)
    else if escapes && c = '\\' then
      match escape cs with
      | none => none
      | some (e, rest) =>
        (lineString mark escapes fuel rest).map fun (text, after) => (e :: text, after)
    else if isPrintable c then
      (lineString mark escapes fuel cs).map fun (text, after) => (c :: text, after)
    else none

/-- The rest of a string over several lines, up to the three marks that close it; one or two marks
right in front of those belong to the text. -/
def blockString (mark : Char) (escapes : Bool) : Nat → Lexer (List Char)
  | 0, _ => none
  | _ + 1, [] => none
  | fuel + 1, c :: cs =>
    if c = mark then
      let marks := (c :: cs).takeWhile (· = mark)
      let rest := (c :: cs).dropWhile (· = mark)
      if 5 < marks.length then none
      else if 3 ≤ marks.length then some (marks.drop 3, rest)
      else (blockString mark escapes fuel rest).map fun (text, after) => (marks ++ text, after)
    else if escapes && c = '\\' then
      match escape cs with
      | some (e, rest) =>
        (blockString mark escapes fuel rest).map fun (text, after) => (e :: text, after)
      | none =>
        match foldedLines? cs with
        | some rest => blockString mark escapes fuel rest
        | none => none
    else
      match newline? (c :: cs) with
      | some rest =>
        (blockString mark escapes fuel rest).map fun (text, after) => ('\n' :: text, after)
      | none =>
        if isPrintable c then
          (blockString mark escapes fuel cs).map fun (text, after) => (c :: text, after)
        else none

/-- A string on one line. -/
def simpleString : Lexer String
  | '"' :: cs =>
    (lineString '"' true (cs.length + 1) cs).map fun (text, rest) => (String.ofList text, rest)
  | '\'' :: cs =>
    (lineString '\'' false (cs.length + 1) cs).map fun (text, rest) => (String.ofList text, rest)
  | _ => none

/-- A string of either form. A line end right behind the opening marks is no part of the text. -/
def string : Lexer String := fun cs =>
  let block (mark : Char) (escapes : Bool) (cs : List Char) : Option (String × List Char) :=
    let body := (newline? cs).getD cs
    (blockString mark escapes (body.length + 1) body).map fun (text, rest) =>
      (String.ofList text, rest)
  match cs with
  | '"' :: '"' :: '"' :: rest => block '"' true rest
  | '\'' :: '\'' :: '\'' :: rest => block '\'' false rest
  | cs => simpleString cs

/-- Characters of a bare key. -/
def isBare (c : Char) : Bool :=
  c.isAlphanum || c = '-' || c = '_'

/-- A single key. -/
def key : Lexer String := fun cs =>
  match cs with
  | [] => none
  | c :: _ =>
    if isBare c then some (String.ofList (cs.takeWhile isBare), cs.dropWhile isBare)
    else simpleString cs

/-- Keys with points between them and blanks anywhere around them, not more than may stand in one
another. -/
def path : Lexer Path :=
  go maxNesting
where
  /-- Reads at most the given number of keys; a further one is refused. -/
  go : Nat → Lexer Path
    | 0, _ => none
    | count + 1, cs =>
      match key (skipSpace cs) with
      | none => none
      | some (k, rest) =>
        match skipSpace rest with
        | '.' :: more => (go count more).map fun (keys, after) => (k :: keys, after)
        | after => some ([k], after)

end LessonGrid.Toml
