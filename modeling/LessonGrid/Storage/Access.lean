/-!
# Access to files

What a program needs of the files around it, reading a whole file and replacing one, in any monad;
and the reasons for which either can fail, worded as an operating system words them. Main statement:
`decodeText_encodeText` (a text survives being written as bytes and read back).
-/

set_option autoImplicit false

namespace LessonGrid

/-- Why a file cannot be read or written. -/
inductive FileFault where
  | missing
  | isFolder
  | notFolder
  | nameTooLong
  | nameInvalid
  | notText
  | other (reason : String)
  deriving DecidableEq, Repr, Inhabited

/-- A fault in words. -/
def FileFault.message : FileFault → String
  | missing => "No such file or directory (os error 2)"
  | isFolder => "Is a directory (os error 21)"
  | notFolder => "Not a directory (os error 20)"
  | nameTooLong => "File name too long (os error 36)"
  | nameInvalid => "file name contained an unexpected NUL byte"
  | notText => "stream did not contain valid UTF-8"
  | other reason => reason

/-- The operations on files. -/
structure FileAccess (m : Type → Type) where
  /-- The bytes of the file at a path. -/
  read : String → m (Except FileFault ByteArray)
  /-- Makes a file at a path hold the given bytes and no others. -/
  write : String → ByteArray → m (Except FileFault Unit)

/-- The text of some bytes in UTF-8. -/
def decodeText (bytes : ByteArray) : Except FileFault String :=
  match String.fromUTF8? bytes with
  | some text => .ok text
  | none => .error .notText

/-- The bytes of a text in UTF-8. -/
def encodeText (text : String) : ByteArray :=
  text.toUTF8

/-- What is encoded decodes to the same text. -/
@[simp] theorem decodeText_encodeText (text : String) :
    decodeText (encodeText text) = .ok text := by
  have h : String.fromUTF8? text.toUTF8 = some text := by
    simp only [String.fromUTF8?, String.toUTF8_eq_toByteArray, dif_pos text.isValidUTF8]
    rfl
  simp only [decodeText, encodeText, h]

namespace FileAccess

variable {m : Type → Type} [Monad m]

/-- The text of the file at a path. -/
def readText (files : FileAccess m) (path : String) : m (Except FileFault String) := do
  match ← files.read path with
  | .error fault => pure (.error fault)
  | .ok bytes => pure (decodeText bytes)

/-- Makes a file at a path hold the given text and nothing else. -/
def writeText (files : FileAccess m) (path text : String) : m (Except FileFault Unit) :=
  files.write path (encodeText text)

end FileAccess

/-- The name at the end of a path, with what stands for the current folder left aside. A path that
ends in the parent folder, or that has no names, has none. -/
def fileName? (path : String) : Option String :=
  match ((path.splitOn "/").filter fun part => part ≠ "" && part ≠ ".").getLast? with
  | some name => if name = ".." then none else some name
  | none => none

end LessonGrid
