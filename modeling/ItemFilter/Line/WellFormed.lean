import ItemFilter.Line.Ranges

/-!
# Well-formed lists of lines

The lines of a text are numbered by their rows, their ranges stay on their rows and within them, a
line is invalid exactly when it has an error, and its tokens do not overlap. `violations` lists what
breaks these rules in a fixed order, so that a list of lines is well-formed when there are none.
-/

namespace ItemFilter

/-- A rule that a list of lines breaks. -/
inductive Violation where
  /-- The line starts on another row than its own. -/
  | startRow (row actual : Nat)
  /-- The line ends on another row than its own. -/
  | stopRow (row actual : Nat)
  /-- The line does not start at the first column. -/
  | startColumn (row : Nat)
  /-- The line is marked invalid without an error, or has an error without the mark. -/
  | invalidMark (row : Nat) (invalid : Bool) (errors : Nat)
  /-- A range lies on another row than its line. -/
  | offRow (what : String) (range : Range) (row : Nat)
  /-- A range stops before it starts. -/
  | reversed (what : String) (range : Range)
  /-- A range reaches beyond its line. -/
  | tooLong (what : String) (range line : Range)
  /-- Two tokens of a line overlap. -/
  | overlap (row : Nat) (first second : Range)
deriving DecidableEq, Repr

namespace Violation

/-- The text of a point. -/
def pointText (p : Point) : String :=
  "Point \x7b row: " ++ toString p.row ++ ", column: " ++ toString p.column ++ " \x7d"

/-- The text of a range. -/
def rangeText (r : Range) : String :=
  "Range \x7b start: " ++ pointText r.start ++ ", end: " ++ pointText r.stop ++ " \x7d"

/-- The text of a violation. -/
def message : Violation → String
  | startRow row actual => s!"line {row} starts on row {actual}"
  | stopRow row actual => s!"line {row} ends on row {actual}"
  | startColumn row => s!"line {row} does not start at column 0"
  | invalidMark row invalid errors => s!"line {row}: invalid={invalid} but {errors} error(s)"
  | offRow what range row => s!"{what}: range {rangeText range} is not on row {row}"
  | reversed what range => s!"{what}: range {rangeText range} is reversed"
  | tooLong what range line =>
    s!"{what}: range {rangeText range} runs past the end of line {rangeText line}"
  | overlap row first second =>
    s!"line {row}: token {rangeText first} overlaps token {rangeText second}"

end Violation

namespace Range

/-- How a range fails to lie within a line. -/
def violations (r : Range) (row : Nat) (line : Range) (what : String) : List Violation :=
  (if r.start.row = row ∧ r.stop.row = row then [] else [.offRow what r row]) ++
    (if r.start ≤ r.stop then [] else [.reversed what r]) ++
    (if r.stop.column ≤ line.stop.column then [] else [.tooLong what r line])

/-- The ranges sorted by their starts; ranges with the same start keep their order. -/
def sorted (ranges : List Range) : List Range := ranges.mergeSort fun r s => r.start ≤ s.start

/-- The neighbours in a list of ranges of which the first reaches into the second. -/
def overlaps (row : Nat) (ranges : List Range) : List Violation :=
  (ranges.zip ranges.tail).filterMap fun (first, second) =>
    if first.stop ≤ second.start then none else some (.overlap row first second)

end Range

namespace Line

/-- The rules that a line breaks as the line of a row. -/
def violations (line : Line) (row : Nat) : List Violation :=
  (if line.range.start.row = row then [] else [.startRow row line.range.start.row]) ++
    (if line.range.stop.row = row then [] else [.stopRow row line.range.stop.row]) ++
    (if line.range.start.column = 0 then [] else [.startColumn row]) ++
    (if line.invalid = line.messages.hasErrors then []
      else [.invalidMark row line.invalid line.messages.errors.length]) ++
    (line.messages.toList.flatMap fun (_, d) => d.range.violations row line.range d.excerpt) ++
    (line.kind.ranges.flatMap fun r => r.violations row line.range "token") ++
    Range.overlaps row (Range.sorted line.kind.ranges)

end Line

/-- The rules that a list of lines breaks, row by row. -/
def violations (lines : List Line) : List Violation :=
  lines.zipIdx.flatMap fun (line, row) => line.violations row

/-- A list of lines is well-formed when it breaks no rule. -/
def WellFormed (lines : List Line) : Prop := violations lines = []

end ItemFilter
