import LessonGrid.CommandLine.Arguments
import LessonGrid.Exercise.Storage
import LessonGrid.Settings

/-!
# Running the command line

A run reads the settings and the lesson, makes the edits in their order, and then either prints the
table of the exercise or writes it to a file. Nothing is printed and no file is written before all of
that has succeeded. The files, and the reader that makes settings of a text, come from outside.
-/

set_option autoImplicit false

namespace LessonGrid.CommandLine

/-- How a run ends: its exit code and the texts that it prints. -/
structure Report where
  code : UInt32
  output : String
  errors : String
  deriving DecidableEq, Repr, Inhabited

/-- A text with blanks after it up to a width. -/
def padRight (width : Nat) (text : String) : String :=
  text ++ String.ofList (List.replicate (width - text.length) ' ')

/-- The explanation of the command line. -/
def usage : String :=
  String.join
    ["Usage: examgrid [OPTIONS] LESSON.csv\n",
      "\n",
      "Arguments:\n",
      "  LESSON.csv                Lesson rows (columns name,val1,c,d,e)\n",
      "\n",
      "Options:\n",
      "  --set <CELL=INPUT>        Edit a cell before rendering (can be repeated)\n",
      "  --formulas                Show formulas instead of computed values\n",
      "  --decimals <N>            Decimal places for non-integer results\n",
      "  -o, --output <FILE>       Export to markdown file instead of stdout\n",
      "  --config <FILE>           Load settings from this TOML file\n",
      "  -h, --help                Print help\n",
      "\n",
      "Functions (use as FUNC(A1:C5) inside a formula):\n"] ++
    String.join (Aggregate.all.map fun f =>
      "  " ++ padRight 24 f.name ++ "  " ++ f.description ++ "\n")

/-- Why a run fails. -/
inductive Failure where
  | unreadableSettings (path : String) (fault : FileFault)
  | malformedSettings (path reason : String)
  | lesson (path : String) (fault : LessonFault)
  | edit (cell : String) (fault : LessonFault)
  | output (fault : LessonFault)
  deriving DecidableEq, Repr, Inhabited

/-- A failure in words: what was being done, and what went wrong. -/
def Failure.message? : Failure → Option String
  | unreadableSettings path fault => some ("reading config " ++ path ++ ": " ++ fault.message)
  | malformedSettings path reason => some ("parsing config " ++ path ++ ": " ++ reason)
  | lesson path fault => fault.trace?.map fun trace => "loading lesson " ++ path ++ ": " ++ trace
  | edit cell fault => fault.trace?.map fun trace => "editing " ++ cell ++ ": " ++ trace
  | output fault => fault.trace?

/-- The settings file of the user who runs the program: its path, and what reading it gives. -/
structure HomeSettings where
  path : String
  bytes : Except FileFault ByteArray

/-- The settings in the bytes of a file. -/
def settingsOf (reader : SettingsReader) (path : String) (bytes : Except FileFault ByteArray) :
    Except Failure Settings :=
  match bytes with
  | .error fault => .error (.unreadableSettings path fault)
  | .ok bytes =>
    match decodeText bytes with
    | .error fault => .error (.unreadableSettings path fault)
    | .ok text =>
      match reader text with
      | .error reason => .error (.malformedSettings path reason)
      | .ok settings => .ok settings

/-- Makes edits one after the other, up to the first that fails. -/
def editAll (ex : Exercise) : List (String × String) → Except Failure Exercise
  | [] => .ok ex
  | (cell, text) :: rest =>
    match ex.editNamed cell text with
    | .error fault => .error (.edit cell fault)
    | .ok (ex, _) => editAll ex rest

namespace Invocation

/-- How the exercise of a lesson is shown: as asked for, and where nothing is, as the settings
say. -/
def present (inv : Invocation) (settings : Settings) (ex : Exercise) : Exercise :=
  { ex with
    showsFormulas := inv.showsFormulas || settings.showsFormulas
    places := inv.places?.getD settings.places }

variable {m : Type → Type} [Monad m] (files : FileAccess m) (reader : SettingsReader)

/-- The settings to use: those of the file asked for, or else of the user's own file where there is
one. -/
def settings (inv : Invocation) (home : Option HomeSettings) : m (Except Failure Settings) :=
  match inv.settings?, home with
  | some path, _ => do pure (settingsOf reader path (← files.read path))
  | none, some file => pure (settingsOf reader file.path file.bytes)
  | none, none => pure (.ok .standard)

/-- The exercise to show: the lesson with the edits made. -/
def exercise (inv : Invocation) (home : Option HomeSettings) : m (Except Failure Exercise) := do
  match ← inv.settings files reader home with
  | .error failure => pure (.error failure)
  | .ok settings =>
    match ← Exercise.load files inv.lesson with
    | .error fault => pure (.error (.lesson inv.lesson fault))
    | .ok ex => pure (editAll (inv.present settings ex) inv.edits)

/-- Shows the exercise, and gives what is printed. -/
def perform (inv : Invocation) (home : Option HomeSettings) : m (Except Failure String) := do
  match ← inv.exercise files reader home with
  | .error failure => pure (.error failure)
  | .ok ex =>
    match inv.output? with
    | none => pure (.ok ex.table)
    | some path =>
      match ← ex.exportTable files path with
      | .error fault => pure (.error (.output fault))
      | .ok () => pure (.ok ("Exported to " ++ path ++ "\n"))

end Invocation

/-- The report of a run that fails. -/
def failed (message : String) : Report :=
  ⟨1, "", "Error: " ++ message ++ "\n"⟩

/-- The report of a run that stops half-way, because a count has left the words. -/
def stopped : Report :=
  ⟨101, "", Word.overflowText ++ "\n"⟩

/-- The report of a failure, which has to be put in words first. -/
def Failure.report (failure : Failure) : Report :=
  match failure.message? with
  | some message => failed message
  | none => stopped

/-- Runs the program with some arguments. Arguments that do not fit are followed by the
explanation. -/
def run {m : Type → Type} [Monad m] (files : FileAccess m) (reader : SettingsReader)
    (home : Option HomeSettings) (arguments : List String) : m Report :=
  match parse arguments with
  | .error fault =>
    let report := failed fault.message
    pure { report with errors := report.errors ++ usage }
  | .ok none => pure ⟨0, "", usage⟩
  | .ok (some inv) => do
    match ← inv.perform files reader home with
    | .error failure => pure failure.report
    | .ok output => pure ⟨0, output, ""⟩

end LessonGrid.CommandLine
