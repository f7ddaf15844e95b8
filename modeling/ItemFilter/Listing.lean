import ItemFilter.Change
import ItemFilter.Line.Parse
import ItemFilter.Line.Ranges

/-!
# The lines of a text

All lines of a text are read row by row, and the rows of a long text all at the same time. After a
change it is enough to read the changed rows: the lines above are kept, and the lines below are
moved.

Reading at the same time gives the same lines in the same order. Only a text with several rows that
are refused shows the difference: which of them is answered depends on which one is refused first,
and nothing but the schedule of the threads decides that.
-/

namespace ItemFilter

/-- Where a text comes from, what its rules may mention, and how the threads that read it are
scheduled. -/
structure Source where
  file : Option String
  vocabulary : Vocabulary
  /-- Which of the rows that are refused at the same time is answered, counted round and round. -/
  schedule : Nat
deriving DecidableEq, Repr

namespace Source

/-- Reads a stretch of numbered rows. The first row that holds a line break is a misuse. -/
def readRows (source : Source) (numbered : List (String × Nat)) : Except Misuse (List Line) :=
  numbered.mapM fun (text, row) => Line.parse text row source.file source.vocabulary

/-- Why a row was refused, if it was. -/
def refusal? : Except Misuse Line → Option Misuse
  | .ok _ => none
  | .error misuse => some misuse

/-- Reads a stretch of numbered rows, all at the same time. If rows are refused, the answer is the
refusal of one of them. -/
def readTogether (source : Source) (numbered : List (String × Nat)) : Except Misuse (List Line) :=
  let results := numbered.map fun (text, row) =>
    Line.parse text row source.file source.vocabulary
  let refusals := results.filterMap refusal?
  match refusals[source.schedule % refusals.length]? with
  | some misuse => .error misuse
  | none => .ok (results.filterMap Except.toOption)

/-- Texts with this many rows or more are read all at the same time. -/
def togetherFrom : Nat := 512

/-- Reads all rows. -/
def readAll (source : Source) (current : List String) : Except Misuse (List Line) :=
  if current.length ≥ togetherFrom then source.readTogether current.zipIdx
  else source.readRows current.zipIdx

/-- Reads the rows of a change and takes all other lines from the previous ones. -/
def splice (source : Source) (current : List String) (previous : List Line) (change : Change) :
    Except Misuse (List Line) :=
  let { startRow, oldExtent, newExtent } := change
  if startRow + oldExtent ≥ previous.length ∨ startRow + newExtent ≥ current.length then
    .error (.changeOutOfBounds startRow oldExtent newExtent previous.length current.length)
  else do
    let fresh ← source.readRows ((current.zipIdx.drop startRow).take (newExtent + 1))
    let below := previous.drop (startRow + oldExtent + 1)
    let moved :=
      if change.rowDelta = 0 then below else below.map (Line.shiftRows change.rowDelta)
    pure (previous.take startRow ++ fresh ++ moved)

/-- Brings the lines up to date with the current rows: by a splice if the previous lines and the
change since are known, by reading all rows otherwise. -/
def update (source : Source) (current : List String) (previous : Option (List Line))
    (change : Option Change) : Except Misuse (List Line) := do
  let lines ← match previous, change with
    | some previous, some change => source.splice current previous change
    | _, _ => source.readAll current
  if lines.length = current.length then pure lines
  else .error (.lengthMismatch current.length lines.length)

end Source

end ItemFilter
