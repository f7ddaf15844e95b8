import ItemFilter.Lexeme
import ItemFilter.Misuse
import ItemFilter.Position

/-!
# A cursor on one row

A cursor stands between two characters of a row and moves to the right only. Every query looks past
the blanks that follow the cursor. A query that finds its lexeme answers a token and moves behind
it; a query that fails leaves the cursor where it was. Which lexeme is expected where is not the
cursor's business.

`Cursor.length_remaining_lt` is the fact on which every loop over a row rests: a query that succeeds
leaves fewer characters.
-/

namespace ItemFilter

/-- A place on a row: the row's number, its characters, and how many of them are behind the
cursor. -/
structure Cursor where
  row : Nat
  text : List Char
  column : Nat
deriving DecidableEq, Repr

namespace Cursor

open Text

/-- The cursor at the start of a row. The text of a row holds no line break. -/
def ofRow (row : Nat) (text : String) : Except Misuse Cursor :=
  if text.toList.any isLineBreak then .error (.lineBreak row) else .ok ⟨row, text.toList, 0⟩

/-- What is in front of the cursor, blanks included. -/
def remaining (c : Cursor) : List Char := c.text.drop c.column

/-- What is in front of the cursor, without leading blanks. -/
def ahead (c : Cursor) : List Char := trimStart c.remaining

/-- The column of the next character that is not blank, or the row's length. -/
def nextColumn (c : Cursor) : Nat := c.column + (c.remaining.takeWhile isBlank).length

/-- The column of the row's first character that is not blank, or the row's length. -/
def firstColumn (c : Cursor) : Nat := (c.text.takeWhile isBlank).length

/-- The column behind the row's last character that is not blank, or the row's length if there is
none. -/
def lastColumn (c : Cursor) : Nat := max (trimEnd c.text).length c.firstColumn

/-- Whether only blanks are left. -/
def isEmpty (c : Cursor) : Bool := c.ahead.isEmpty

/-- Whether a comment comes next. -/
def isCommented (c : Cursor) : Bool := c.ahead.head? == some '#'

/-- Whether nothing but blanks and a comment is left. -/
def isIgnored (c : Cursor) : Bool := c.isEmpty || c.isCommented

/-- The range between two columns of the cursor's row. -/
def columns (c : Cursor) (start stop : Nat) : Range := .onRow c.row start stop

/-- The range of the whole row. -/
def lineRange (c : Cursor) : Range := c.columns 0 c.text.length

/-- The range of the row without the blanks at either end. -/
def trimmedRange (c : Cursor) : Range := c.columns c.firstColumn c.lastColumn

/-- The range from the next character that is not blank to the end of the row. -/
def restOfLine (c : Cursor) : Range := c.columns c.nextColumn c.text.length

/-- The range from the next character that is not blank to the last one on the row. -/
def restOfText (c : Cursor) : Range := c.columns c.nextColumn (max c.lastColumn c.nextColumn)

/-- Reads a lexeme of one kind and moves behind it. -/
def next {α : Type} (recognise : List Char → Option (Lexeme α)) (c : Cursor) :
    Option (Token α × Cursor) :=
  (recognise c.ahead).map fun lexeme =>
    let stop := c.nextColumn + lexeme.text.length
    (⟨lexeme.value, c.columns c.nextColumn stop⟩, { c with column := stop })

/-- Reads a comment, which reaches from its `#` to the row's last character that is not blank. -/
def comment (c : Cursor) : Option (Token String × Cursor) :=
  if c.isCommented then
    let stop := max c.lastColumn c.nextColumn
    let text := (c.text.take stop).drop c.nextColumn
    some (⟨String.ofList text, c.columns c.nextColumn stop⟩, { c with column := stop })
  else none

/-- The kind of the lexeme that comes next. -/
def peek (c : Cursor) : Option Lexeme.Kind := Lexeme.kind? c.ahead

/-- Looking ahead is dropping the characters up to the next column. -/
theorem ahead_eq_drop (c : Cursor) : c.ahead = c.text.drop c.nextColumn := by
  have dropWhile_eq (cs : List Char) :
      cs.dropWhile isBlank = cs.drop (cs.takeWhile isBlank).length := by
    induction cs with
    | nil => rfl
    | cons a as ih => by_cases h : isBlank a <;> simp [h, ih]
  simp [ahead, trimStart, dropWhile_eq, remaining, nextColumn, List.drop_drop]

/-- A query that finds a lexeme of at least one character leaves fewer characters in front of the
cursor. -/
theorem length_remaining_lt {α : Type} {recognise : List Char → Option (Lexeme α)}
    (hne : ∀ {cs : List Char} {l : Lexeme α}, recognise cs = some l → cs ≠ [] ∧ l.text ≠ [])
    {c c' : Cursor} {t : Token α} (h : c.next recognise = some (t, c')) :
    c'.remaining.length < c.remaining.length := by
  obtain ⟨l, hl, heq⟩ := Option.map_eq_some_iff.1 h
  obtain ⟨hahead, htext⟩ := hne hl
  have hpos : 0 < l.text.length := List.length_pos_iff.2 htext
  have hlen : 0 < c.ahead.length := List.length_pos_iff.2 hahead
  rw [ahead_eq_drop, List.length_drop] at hlen
  obtain rfl : { c with column := c.nextColumn + l.text.length } = c' := (Prod.mk.inj heq).2
  have hcol : c.column ≤ c.nextColumn := Nat.le_add_right _ _
  simp only [remaining, List.length_drop]
  omega

/-- A string takes at least one character. -/
theorem string?_ne_nil {cs : List Char} {l : Lexeme String} (h : Lexeme.string? cs = some l) :
    cs ≠ [] ∧ l.text ≠ [] := by
  cases cs with
  | nil => simp [Lexeme.string?, Lexeme.bareString?, firstRun] at h
  | cons a as =>
    refine ⟨List.cons_ne_nil _ _, ?_⟩
    unfold Lexeme.string? at h
    split at h
    · simp only [Lexeme.quotedString?] at h
      split at h
      · split at h
        · cases h; simp
        · cases h
      · cases h
    · simp only [Lexeme.bareString?] at h
      split at h
      · rename_i hrun
        cases h
        simp only [Bool.and_eq_true, Bool.not_eq_true', List.isEmpty_eq_false_iff] at hrun
        exact hrun.1.1
      · cases h

end Cursor

end ItemFilter
