import ItemFilter.Lexeme.Pattern
import ItemFilter.Misuse
import ItemFilter.Position

/-!
# A scanner of one row

The place on a row that is kept while its tokens are read off, in bytes. Every part of the row is
cut out at byte offsets, and a cut that does not fall between two characters fails. A function that
has to cut therefore answers nothing where a cut of it fails, and what else it has to answer is one
level further in: reading a token answers the token, if there is one, and the scanner that is left.

`Cursor` is the same place as a column. That no cut ever fails and that the two agree is proved in
`Proofs.Scanning`.
-/

namespace ItemFilter

/-- A place on a row, with all offsets in bytes. -/
structure Scanner where
  text : List Char
  row : Nat
  /-- Where the first character stands that is not read yet. -/
  offset : Nat
  /-- Where the first character of the row stands that is not blank. -/
  textStart : Nat
  /-- The place just past the last character of the row that is not blank. -/
  textEnd : Nat
deriving DecidableEq, Repr

namespace Scanner

open Text

/-- The scanner at the start of a row. The text of a row holds no line break. -/
def ofRow (row : Nat) (text : String) : Except Misuse Scanner :=
  let cs := text.toList
  if cs.any isLineBreak then .error (.lineBreak row)
  else
    let textStart := byteLength cs - byteLength (trimStart cs)
    let textEnd := max (byteLength (trimEnd cs)) textStart
    .ok ⟨cs, row, 0, textStart, textEnd⟩

/-- The row from a byte offset on. -/
def sliceFrom? (s : Scanner) (start : Nat) : Option (List Char) :=
  (splitAtByte? start s.text).map Prod.snd

/-- The row up to a byte offset. -/
def sliceTo? (s : Scanner) (stop : Nat) : Option (List Char) :=
  (splitAtByte? stop s.text).map Prod.fst

/-- The row between two byte offsets. -/
def slice? (s : Scanner) (start stop : Nat) : Option (List Char) := do
  let upTo ← s.sliceTo? stop
  let (_, between) ← splitAtByte? start upTo
  return between

/-- The part of the row that is not read yet, blanks included. -/
def remaining? (s : Scanner) : Option (List Char) := s.sliceFrom? s.offset

/-- Whether only blanks are left. -/
def isEmpty? (s : Scanner) : Option Bool := s.remaining?.map fun rest => (trim rest).isEmpty

/-- Whether a comment comes next. -/
def isCommented? (s : Scanner) : Option Bool :=
  s.remaining?.map fun rest => (trimStart rest).head? == some '#'

/-- Whether nothing but blanks and a comment is left. -/
def isIgnored? (s : Scanner) : Option Bool := do return (← s.isEmpty?) || (← s.isCommented?)

/-- Where the next character stands that is not blank. -/
def nextStart? (s : Scanner) : Option Nat :=
  s.remaining?.map fun rest => s.offset + (byteLength rest - byteLength (trimStart rest))

/-- The column at a byte offset. -/
def column? (s : Scanner) (byte : Nat) : Option Nat := (s.sliceTo? byte).map List.length

/-- The range between two byte offsets. -/
def byteRange? (s : Scanner) (start stop : Nat) : Option Range := do
  return .onRow s.row (← s.column? start) (← s.column? stop)

/-- The range of the whole row. -/
def lineRange? (s : Scanner) : Option Range := do
  return .onRow s.row 0 (← s.column? (byteLength s.text))

/-- The range of the row without the blanks at either end. -/
def trimmedRange? (s : Scanner) : Option Range := s.byteRange? s.textStart s.textEnd

/-- The range from the next character that is not blank to the end of the row. -/
def restOfLine? (s : Scanner) : Option Range := do
  s.byteRange? (← s.nextStart?) (byteLength s.text)

/-- The range from the next character that is not blank to the last one on the row. -/
def restOfText? (s : Scanner) : Option Range := do
  let start ← s.nextStart?
  s.byteRange? start (max s.textEnd start)

/-- Applies one rule behind the blanks that come next. -/
def next? {α : Type} (rule : TokenRule α) (s : Scanner) : Option (Option (Token α) × Scanner) := do
  let start ← s.nextStart?
  match rule.matches? (← s.sliceFrom? start) with
  | none => return (none, s)
  | some (value, size) =>
    let moved := { s with offset := start + size }
    return (some ⟨value, ← moved.byteRange? start (start + size)⟩, moved)

/-- Reads a comment, which reaches from its `#` to the row's last character that is not blank. -/
def comment? (s : Scanner) : Option (Option (Token String) × Scanner) := do
  if !(← s.isCommented?) then
    return (none, s)
  let start ← s.nextStart?
  let stop := max s.textEnd start
  let value ← s.slice? start stop
  let moved := { s with offset := stop }
  return (some ⟨String.ofList value, ← moved.byteRange? start stop⟩, moved)

/-- The kind of the token that comes next. -/
def peek? (s : Scanner) : Option (Option Lexeme.Kind) := do
  return TokenRule.kind? (← s.sliceFrom? (← s.nextStart?))

end Scanner

end ItemFilter
