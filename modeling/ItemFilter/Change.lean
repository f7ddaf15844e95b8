import ItemFilter.Misuse
import ItemFilter.Row
import ItemFilter.Text.Offset

/-!
# Edits and the rows that they change

An edit replaces a stretch of a text. It leaves the rows above and below alone, up to the fact that
a carriage return and a line feed that come together, or are torn apart, make one terminator of two
or two of one. A change names the rows concerned: the first of them, and how many rows beyond it the
old and the new text have there.
-/

namespace ItemFilter

open Text

/-- The replacement of the bytes from `start` to `stop` of a text. -/
structure Edit where
  start : Nat
  stop : Nat
  inserted : String
deriving DecidableEq, Repr

namespace Edit

/-- The text before, inside and behind the replaced stretch, if the edit names two places of the
text in order. -/
def split? (e : Edit) (text : List Char) : Option (List Char × List Char × List Char) :=
  if e.start ≤ e.stop then do
    let (before, rest) ← splitAtByte? e.start text
    let (removed, after) ← splitAtByte? (e.stop - e.start) rest
    some (before, removed, after)
  else none

/-- The misuse of an edit that does not fit a text. -/
def misuse (e : Edit) (text : List Char) : Misuse :=
  .editOutOfBounds e.start e.stop (byteLength text)

end Edit

/-- The rows `startRow` to `startRow + oldExtent` of a text were replaced by the rows `startRow` to
`startRow + newExtent` of the next text. -/
structure Change where
  startRow : Nat
  oldExtent : Nat
  newExtent : Nat
deriving DecidableEq, Repr

namespace Change

/-- The last row of a text that ends here: what follows its last line break. -/
def lastRow (cs : List Char) : List Char :=
  (cs.reverse.takeWhile fun c => !isLineBreak c).reverse

/-- Whether a place lies between the two characters of one terminator. -/
def insideTerminator (before after : List Char) : Bool :=
  before.getLast? == some '\r' && after.head? == some '\n'

/-- The part of its row that lies before a place. A place inside a terminator belongs to the row
that the terminator ends. -/
def rowBefore (before after : List Char) : List Char :=
  if insideTerminator before after then lastRow before.dropLast ++ ['\r'] else lastRow before

/-- The part of its row that lies behind a place, with the row's terminator, and whether the row has
one. -/
def rowAfter (before after : List Char) : List Char × Bool :=
  if insideTerminator before after then (['\n'], true)
  else
    let rest := after.takeWhile fun c => !isLineBreak c
    match after.drop rest.length with
    | '\r' :: '\n' :: _ => (rest ++ ['\r', '\n'], true)
    | c :: _ => (rest ++ [c], true)
    | [] => (rest, false)

/-- The part of the changed rows that lies before the edit. If the edit starts a row, and a line
feed comes to stand behind the lone carriage return that ends the row above, the two become one
terminator and the row above changes too. -/
def lead (before removed inserted after : List Char) : List Char :=
  let row := rowBefore before (removed ++ after)
  let startsWithLineFeed :=
    inserted.head? == some '\n' || inserted.isEmpty && after.head? == some '\n'
  if row.isEmpty && before.getLast? == some '\r' && startsWithLineFeed then
    lastRow before.dropLast ++ ['\r']
  else row

/-- The rows that change when `removed`, which stands between `before` and `after`, is replaced by
`inserted`. -/
def ofParts (before removed inserted after : List Char) : Change :=
  let lead := lead before removed inserted after
  let (tail, terminated) := rowAfter (before ++ removed) after
  let closed := if terminated then 1 else 0
  { startRow := terminators (before.take (before.length - lead.length))
    oldExtent := terminators (lead ++ removed ++ tail) - closed
    newExtent := terminators (lead ++ inserted ++ tail) - closed }

/-- The rows that an edit of a text changes. -/
def ofEdit (text : String) (e : Edit) : Except Misuse Change :=
  match e.split? text.toList with
  | none => .error (e.misuse text.toList)
  | some (before, removed, after) => .ok (ofParts before removed e.inserted.toList after)

/-- How far the rows below the change move. -/
def rowDelta (c : Change) : Int := (c.newExtent : Int) - c.oldExtent

/-- The first of the rows to be read again, and the row behind the last of them. -/
def reparsed (c : Change) : Nat × Nat := (c.startRow, c.startRow + c.newExtent + 1)

end Change

end ItemFilter
