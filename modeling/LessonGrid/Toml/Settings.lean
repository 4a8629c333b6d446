import LessonGrid.Settings
import LessonGrid.Toml.Document

/-!
# Settings in TOML

Settings are a TOML document with a single table `display`, which may give `formula_view` and `decimals`.
The table may be written under its header, by paths, in braces, or as an array of its values in that
order; any other key is refused, and so is a key given twice.
-/

set_option autoImplicit false

namespace LessonGrid

namespace Settings

/-- The settings that a document has given so far. -/
structure Given where
  showsFormulas? : Option Bool
  places? : Option Nat
  deriving DecidableEq, Repr, Inhabited

namespace Given

/-- No setting has been given. -/
def nothing : Given :=
  ⟨none, none⟩

/-- One more setting is given, under its key and for the first time. -/
def assign (g : Given) (key : String) (value : Toml.Value) : Option Given :=
  if key = "formula_view" then
    match g.showsFormulas?, value with
    | none, .boolean b => some { g with showsFormulas? := some b }
    | _, _ => none
  else if key = "decimals" then
    match g.places?, value with
    | none, .integer (.ofNat n) => some { g with places? := some n }
    | _, _ => none
  else none

/-- The settings in the entries of a table. -/
def ofEntries (g : Given) : List (Toml.Path × Toml.Value) → Option Given
  | [] => some g
  | ([key], value) :: rest =>
    match g.assign key value with
    | some g => g.ofEntries rest
    | none => none
  | _ => none

/-- The settings in a value that stands for the whole table. Values of an array past the second are
left aside. -/
def ofValue? : Toml.Value → Option Given
  | .table entries => nothing.ofEntries entries
  | .array [] => some nothing
  | .array [x] => nothing.assign "formula_view" x
  | .array (x :: y :: _) =>
    match nothing.assign "formula_view" x with
    | some g => g.assign "decimals" y
    | none => none
  | _ => none

/-- The settings given, with the standard ones for those that are not. -/
def settle (g : Given) : Settings :=
  ⟨g.showsFormulas?.getD standard.showsFormulas, g.places?.getD standard.places⟩

end Given

/-- How far a document has come: it has not spoken of the table, it gives the table by paths, it is
below the table's header, or it has given the table as one value. -/
inductive Stage where
  | untouched
  | byPaths (given : Given)
  | belowHeader (given : Given)
  | whole (given : Given)
  deriving DecidableEq, Repr, Inhabited

namespace Stage

/-- The stage after one more statement, if that may follow. -/
def next : Stage → Toml.Statement → Option Stage
  | untouched, .header ["display"] => some (belowHeader .nothing)
  | untouched, .assignment ["display"] value => (Given.ofValue? value).map whole
  | untouched, .assignment ["display", key] value => (Given.nothing.assign key value).map byPaths
  | byPaths given, .assignment ["display", key] value => (given.assign key value).map byPaths
  | belowHeader given, .assignment [key] value => (given.assign key value).map belowHeader
  | _, _ => none

/-- The stage after some more statements. -/
def after (stage : Stage) : List Toml.Statement → Option Stage
  | [] => some stage
  | statement :: rest =>
    match stage.next statement with
    | some stage => stage.after rest
    | none => none

/-- The settings of a document that ends at a stage. -/
def settings : Stage → Settings
  | untouched => standard
  | byPaths given => given.settle
  | belowHeader given => given.settle
  | whole given => given.settle

end Stage

/-- The settings of a document's text. -/
def ofText? (text : String) : Option Settings :=
  match Toml.document? text with
  | none => none
  | some statements => (Stage.untouched.after statements).map Stage.settings

end Settings

/-- Settings are read as TOML. -/
def tomlSettings : SettingsReader := fun text =>
  match Settings.ofText? text with
  | some settings => .ok settings
  | none => .error "not a document of settings"

end LessonGrid
