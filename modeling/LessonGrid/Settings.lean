import LessonGrid.Evaluation.Display

/-!
# Settings

How exercises are shown where nothing else is asked for. What makes settings of a document's text is left
open here.
-/

set_option autoImplicit false

namespace LessonGrid

/-- Whether formulas are shown, and the number of decimal places. -/
structure Settings where
  showsFormulas : Bool
  places : Nat
  deriving DecidableEq, Repr

/-- What makes settings of a document's text, or refuses it for a reason. -/
abbrev SettingsReader :=
  String → Except String Settings

namespace Settings

/-- The settings where no document gives any. -/
def standard : Settings :=
  ⟨false, defaultPlaces⟩

instance : Inhabited Settings :=
  ⟨standard⟩

end Settings

end LessonGrid
