import LessonGrid.CommandLine.Run
import LessonGrid.Toml.Settings

/-!
# The program

The command line on the files of the system that the program runs on, with settings in TOML.
-/

set_option autoImplicit false

namespace LessonGrid

/-- The outcome of a file operation of the system. -/
def systemOutcome {α : Type} (action : IO α) : IO (Except FileFault α) := do
  try
    return .ok (← action)
  catch fault =>
    match fault with
    | .noFileOrDirectory .. => return .error .missing
    | .inappropriateType _ code _ => return .error (if code = 21 then .isFolder else .notFolder)
    | fault => return .error (.other (toString fault))

/-- Access to the files of the system. -/
def systemFiles : FileAccess IO where
  read path := systemOutcome (IO.FS.readBinFile path)
  write path bytes := systemOutcome (IO.FS.writeBinFile path bytes)

/-- The path of the user's own settings file. -/
def settingsPath? : IO (Option String) := do
  let folder ←
    match ← IO.getEnv "XDG_CONFIG_HOME" with
    | some folder => if folder.startsWith "/" then pure (some folder) else userFolder?
    | none => userFolder?
  return folder.map (· ++ "/examgrid/config.toml")
where
  /-- The folder for settings in the user's home. -/
  userFolder? : IO (Option String) := do
    return (← IO.getEnv "HOME").map (· ++ "/.config")

/-- The user's own settings file, if there is one. -/
def homeSettings? : IO (Option CommandLine.HomeSettings) := do
  match ← settingsPath? with
  | none => return none
  | some path =>
    match ← systemFiles.read path with
    | .error .missing | .error .isFolder | .error .notFolder => return none
    | bytes => return some ⟨path, bytes⟩

end LessonGrid

/-- Runs the program and prints its report. -/
def main (arguments : List String) : IO UInt32 := do
  let report ← LessonGrid.CommandLine.run LessonGrid.systemFiles LessonGrid.tomlSettings
    (← LessonGrid.homeSettings?) arguments
  IO.print report.output
  IO.eprint report.errors
  return report.code
