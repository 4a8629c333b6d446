import LessonGrid.Text.Numeral

/-!
# Arguments

The arguments of the command line: options in any order around the path of one lesson file. Reading
stops at the first argument that asks for help, or at the first one that does not fit.
-/

set_option autoImplicit false

namespace LessonGrid.CommandLine

/-- What the command line asks for: the lesson to show, the edits to make first, and how and where
to show it. -/
structure Invocation where
  lesson : String
  edits : List (String × String)
  showsFormulas : Bool
  places? : Option Nat
  output? : Option String
  settings? : Option String
  deriving DecidableEq, Repr, Inhabited

/-- The options. -/
inductive Flag where
  | help
  | set
  | formulas
  | decimals
  | output
  | config
  deriving DecidableEq, Repr, Inhabited

/-- The option that an argument names. -/
def Flag.ofArgument? (argument : String) : Option Flag :=
  if argument = "-h" ∨ argument = "--help" then some help
  else if argument = "--set" then some set
  else if argument = "--formulas" then some formulas
  else if argument = "--decimals" then some decimals
  else if argument = "-o" ∨ argument = "--output" then some output
  else if argument = "--config" then some config
  else none

/-- Why arguments do not fit. -/
inductive ArgumentFault where
  | setWithoutEdit
  | malformedEdit (argument : String)
  | decimalsWithoutValue
  | invalidDecimals (argument : String)
  | outputWithoutPath
  | configWithoutPath
  | unknownOption (argument : String)
  | secondLesson (argument : String)
  | noLesson
  deriving DecidableEq, Repr, Inhabited

/-- A fault in words. -/
def ArgumentFault.message : ArgumentFault → String
  | setWithoutEdit => "--set requires CELL=INPUT"
  | malformedEdit argument => "--set expects CELL=INPUT, got '" ++ argument ++ "'"
  | decimalsWithoutValue => "--decimals requires a value"
  | invalidDecimals argument => "invalid --decimals '" ++ argument ++ "'"
  | outputWithoutPath => "--output requires a file path"
  | configWithoutPath => "--config requires a file path"
  | unknownOption argument => "Unknown option: " ++ argument
  | secondLesson argument => "Unexpected argument: " ++ argument
  | noLesson => "missing lesson file"

/-- What the arguments read so far ask for. -/
structure Draft where
  lesson? : Option String
  /-- The edits, the last one first. -/
  edits : List (String × String)
  showsFormulas : Bool
  places? : Option Nat
  output? : Option String
  settings? : Option String
  deriving DecidableEq, Repr, Inhabited

namespace Draft

/-- Nothing has been asked for. -/
def empty : Draft :=
  ⟨none, [], false, none, none, none⟩

/-- What is asked for in the end; a lesson has to be. -/
def finish (draft : Draft) : Except ArgumentFault Invocation :=
  match draft.lesson? with
  | none => .error .noLesson
  | some lesson =>
    .ok ⟨lesson, draft.edits.reverse, draft.showsFormulas, draft.places?, draft.output?,
      draft.settings?⟩

end Draft

/-- A cell's name and its new text, with the first equals sign between them. -/
def edit? (argument : String) : Option (String × String) :=
  let cs := argument.toList
  match cs.dropWhile (· != '=') with
  | [] => none
  | _ :: input => some (String.ofList (cs.takeWhile (· != '=')), String.ofList input)

/-- A number of decimal places: a numeral, which may start with zeros or a plus, of a number that fits
in a word. -/
def places? (argument : String) : Option Nat :=
  let numeral :=
    match argument.toList with
    | '+' :: cs => cs
    | cs => cs
  match Numeral.natural? numeral with
  | some n => if n < UInt64.size then some n else none
  | none => none

/-- What the arguments ask for after those already read: nothing, when they ask for help. -/
def parseFrom (draft : Draft) : List String → Except ArgumentFault (Option Invocation)
  | [] => draft.finish.map some
  | argument :: rest =>
    match Flag.ofArgument? argument, rest with
    | some .help, _ => .ok none
    | some .formulas, rest => parseFrom { draft with showsFormulas := true } rest
    | some .set, [] => .error .setWithoutEdit
    | some .set, value :: rest =>
      match edit? value with
      | none => .error (.malformedEdit value)
      | some edit => parseFrom { draft with edits := edit :: draft.edits } rest
    | some .decimals, [] => .error .decimalsWithoutValue
    | some .decimals, value :: rest =>
      match places? value with
      | none => .error (.invalidDecimals value)
      | some n => parseFrom { draft with places? := some n } rest
    | some .output, [] => .error .outputWithoutPath
    | some .output, value :: rest => parseFrom { draft with output? := some value } rest
    | some .config, [] => .error .configWithoutPath
    | some .config, value :: rest => parseFrom { draft with settings? := some value } rest
    | none, rest =>
      if argument.startsWith "-" then .error (.unknownOption argument)
      else if draft.lesson?.isSome then .error (.secondLesson argument)
      else parseFrom { draft with lesson? := some argument } rest

/-- What some arguments ask for: nothing, when they ask for help. -/
def parse (arguments : List String) : Except ArgumentFault (Option Invocation) :=
  parseFrom .empty arguments

end LessonGrid.CommandLine
