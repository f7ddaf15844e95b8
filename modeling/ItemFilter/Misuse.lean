/-!
# Misuse

The ways in which a caller can ask for something impossible. Bad filter text is never one of them:
it is reported by diagnostics on the lines that hold it.
-/

namespace ItemFilter

/-- A request that cannot be met. -/
inductive Misuse where
  /-- The text of one row holds a line break. -/
  | lineBreak (row : Nat)
  /-- A change names rows that the old or the new text does not have. -/
  | changeOutOfBounds (startRow oldExtent newExtent previousRows currentRows : Nat)
  /-- An edit does not name two places of the text in order. -/
  | editOutOfBounds (start stop length : Nat)
  /-- The lines put together are not as many as the rows. -/
  | lengthMismatch (expected actual : Nat)
  /-- A result belongs to another version of the document. -/
  | staleResult (pass current : Nat)
deriving DecidableEq, Repr

namespace Misuse

/-- The text of a misuse. -/
def message : Misuse → String
  | lineBreak row =>
    s!"line {row} contains a line terminator; lines must be split before tokenizing"
  | changeOutOfBounds startRow oldExtent newExtent previousRows currentRows =>
    s!"change starting at row {startRow} (old extent {oldExtent}, new extent {newExtent}) does " ++
      s!"not fit a document of {previousRows} previous and {currentRows} current rows"
  | editOutOfBounds start stop length =>
    s!"edit range {start}..{stop} is not valid for a buffer of {length} bytes"
  | lengthMismatch expected actual =>
    s!"reassembled document has {actual} lines but the buffer has {expected}"
  | staleResult pass current =>
    s!"parse pass for version {pass} is stale (document is at version {current})"

end Misuse

end ItemFilter
