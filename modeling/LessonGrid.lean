import LessonGrid.Json.Records
import LessonGrid.Main
import LessonGrid.Storage.Folder
import LessonGrid.Proofs.Formula.Grammar
import LessonGrid.Proofs.Dependency.Loop
import LessonGrid.Proofs.Dependency.Search
import LessonGrid.Proofs.Dependency.Circular
import LessonGrid.Proofs.Formula.Refusal
import LessonGrid.Proofs.Evaluation.Ceiling
import LessonGrid.Proofs.Exercise.Edit
import LessonGrid.Proofs.Lesson.Fields
import LessonGrid.Proofs.Lesson.Lines
import LessonGrid.Proofs.Lesson.RoundTrip
import LessonGrid.Proofs.Evaluation.Reads
import LessonGrid.Proofs.Evaluation.Unlimited
import LessonGrid.Proofs.Evaluation.Locality
import LessonGrid.Proofs.Cell.Range
import LessonGrid.Proofs.Dependency.Coverage
import LessonGrid.Proofs.Dependency.CircularValue
import LessonGrid.Proofs.Exercise.Reload
import LessonGrid.Proofs.Cell.Spelling
import LessonGrid.Proofs.Formula.Words
import LessonGrid.Proofs.Formula.Spelling
import LessonGrid.Proofs.Formula.Colon
import LessonGrid.Proofs.Formula.Language
import LessonGrid.Proofs.Exercise.Session
import LessonGrid.Proofs.CommandLine.Arguments
import LessonGrid.Proofs.CommandLine.Run
import LessonGrid.Proofs.Decimal.Finite
import LessonGrid.Proofs.Evaluation.Finite
import LessonGrid.Proofs.Exercise.Table
import LessonGrid.Proofs.Evaluation.Calculation
import LessonGrid.Proofs.Formula.Height
import LessonGrid.Proofs.Formula.LetterCase
import LessonGrid.Proofs.Grid.LetterCase
import LessonGrid.Proofs.Lesson.Positions
import LessonGrid.Proofs.Decimal.Exact
import LessonGrid.Proofs.Decimal.Rounding
import LessonGrid.Proofs.Evaluation.Sweep
import LessonGrid.Proofs.Evaluation.Display
import LessonGrid.Proofs.Text.Cut
import LessonGrid.Proofs.CommandLine.Groups
import LessonGrid.Proofs.Cell.Reading
import LessonGrid.Proofs.Formula.References
import LessonGrid.Proofs.Cell.Order
import LessonGrid.Proofs.Evaluation.Overflow
import LessonGrid.Proofs.Lesson.Separators
