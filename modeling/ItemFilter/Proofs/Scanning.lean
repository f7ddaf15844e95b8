import ItemFilter.Proofs.Change
import ItemFilter.Proofs.Patterns
import ItemFilter.Proofs.Tiling
import ItemFilter.Scanner

/-!
# The scanner and the cursor

A scanner counts in bytes, and a cursor in characters. To each cursor belongs the scanner that
stands at the same place of the same row (`Cursor.scanner`). On such a scanner no cut fails: each
offset that it cuts at is that of a column, and the row splits there (`Cursor.sliceFrom?_scanner`,
`Cursor.sliceTo?_scanner`). Every function of the scanner answers what the function of the cursor
answers, and moves to the scanner of the cursor that is left (`Cursor.next?_scanner`,
`Cursor.comment?_scanner`).
-/

namespace ItemFilter

open Text Lexeme

/-! ## Bytes in front of a column -/

/-- More characters do not have fewer bytes. -/
theorem Text.monotone_byteLength_take (cs : List Char) :
    Monotone fun column => byteLength (cs.take column) := by
  intro i j hij
  obtain ⟨k, rfl⟩ := Nat.exists_eq_add_of_le hij
  show byteLength (cs.take i) ≤ byteLength (cs.take (i + k))
  rw [List.take_add, byteLength_append]
  exact Nat.le_add_right _ _

/-- A character has a byte at least. -/
theorem Text.byteLength_pos {cs : List Char} (h : cs ≠ []) : 0 < byteLength cs := by
  obtain ⟨c, others, rfl⟩ := List.exists_cons_of_ne_nil h
  have hsize := c.utf8Size_pos
  rw [byteLength]
  omega

/-- The bytes by which a text is longer than without its leading blanks are those of the blanks. -/
theorem Text.byteLength_sub_trimStart (cs : List Char) :
    byteLength cs - byteLength (trimStart cs) = byteLength (cs.takeWhile isBlank) := by
  have hsplit : byteLength cs = byteLength (cs.takeWhile isBlank) + byteLength (trimStart cs) := by
    rw [← byteLength_append, trimStart, List.takeWhile_append_dropWhile]
  omega

/-- Ranges do not depend on what is read already. -/
@[simp]
theorem Scanner.byteRange?_offset (s : Scanner) (offset start stop : Nat) :
    { s with offset := offset }.byteRange? start stop = s.byteRange? start stop := rfl

namespace Cursor

variable {c : Cursor}

/-- The byte offset of a column of the cursor's row. -/
def byteAt (c : Cursor) (column : Nat) : Nat := byteLength (c.text.take column)

/-- The scanner that stands where the cursor stands. -/
def scanner (c : Cursor) : Scanner where
  text := c.text
  row := c.row
  offset := c.byteAt c.column
  textStart := c.byteAt c.firstColumn
  textEnd := c.byteAt c.lastColumn

/-- The offset of the further one of two columns is the greater one of their offsets. -/
theorem byteAt_max (c : Cursor) (i j : Nat) : c.byteAt (max i j) = max (c.byteAt i) (c.byteAt j) :=
  (monotone_byteLength_take c.text).map_max

/-- The offset of a column behind some characters that follow another column. -/
theorem byteAt_add {column : Nat} {token rest : List Char}
    (h : c.text.drop column = token ++ rest) :
    c.byteAt (column + token.length) = c.byteAt column + byteLength token := by
  rw [byteAt, byteAt, List.take_add, byteLength_append, h, List.take_left]

/-- A column that is further to the right on the row has a greater offset. -/
theorem byteAt_lt {start stop : Nat} (hlt : start < stop) (hstop : stop ≤ c.text.length) :
    c.byteAt start < c.byteAt stop := by
  obtain ⟨n, rfl⟩ := Nat.exists_eq_add_of_lt hlt
  have hne : (c.text.drop start).take (n + 1) ≠ [] := by
    rw [← List.length_pos_iff, List.length_take, List.length_drop]
    omega
  have hpos := byteLength_pos hne
  rw [byteAt, byteAt, Nat.add_assoc, List.take_add, byteLength_append]
  omega

/-- A column that is not further to the left has an offset that is not less. -/
theorem byteAt_le (c : Cursor) {start stop : Nat} (h : start ≤ stop) :
    c.byteAt start ≤ c.byteAt stop := monotone_byteLength_take c.text h

/-- The offset of the row's end. -/
theorem byteAt_length (c : Cursor) : c.byteAt c.text.length = byteLength c.text := by
  rw [byteAt, List.take_length]

/-! ## Cuts -/

/-- The row splits at the offset of a column. -/
theorem splitAtByte?_byteAt (c : Cursor) (column : Nat) :
    splitAtByte? (c.byteAt column) c.text = some (c.text.take column, c.text.drop column) :=
  splitAtByte?_eq_some_iff.2 ⟨(List.take_append_drop _ _).symm, rfl⟩

/-- Cutting off what is in front of a column does not fail. -/
theorem sliceFrom?_scanner (c : Cursor) (column : Nat) :
    c.scanner.sliceFrom? (c.byteAt column) = some (c.text.drop column) :=
  congrArg (Option.map Prod.snd) (c.splitAtByte?_byteAt column)

/-- Cutting off what is behind a column does not fail. -/
theorem sliceTo?_scanner (c : Cursor) (column : Nat) :
    c.scanner.sliceTo? (c.byteAt column) = some (c.text.take column) :=
  congrArg (Option.map Prod.fst) (c.splitAtByte?_byteAt column)

/-- Cutting out what is between two columns does not fail. -/
theorem slice?_scanner {start stop : Nat} (h : start ≤ stop) :
    c.scanner.slice? (c.byteAt start) (c.byteAt stop) =
      some ((c.text.take stop).drop start) := by
  have hstart : splitAtByte? (c.byteAt start) (c.text.take stop) =
      some (c.text.take start, (c.text.take stop).drop start) := by
    have htake : (c.text.take stop).take start = c.text.take start := by
      rw [List.take_take, Nat.min_eq_left h]
    refine splitAtByte?_eq_some_iff.2 ⟨?_, rfl⟩
    rw [← htake, List.take_append_drop]
  simp [Scanner.slice?, sliceTo?_scanner, hstart]

/-- The column at the offset of a column is that column. -/
theorem column?_scanner {column : Nat} (h : column ≤ c.text.length) :
    c.scanner.column? (c.byteAt column) = some column := by
  rw [Scanner.column?, sliceTo?_scanner, Option.map_some, List.length_take, Nat.min_eq_left h]

/-- The range between the offsets of two columns is that between the columns. -/
theorem byteRange?_scanner {start stop : Nat} (hstart : start ≤ c.text.length)
    (hstop : stop ≤ c.text.length) :
    c.scanner.byteRange? (c.byteAt start) (c.byteAt stop) = some (c.columns start stop) := by
  simp only [Scanner.byteRange?, column?_scanner hstart, column?_scanner hstop]
  rfl

/-! ## Questions without a move -/

/-- What the scanner has not read yet is what is in front of the cursor. -/
theorem remaining?_scanner (c : Cursor) : c.scanner.remaining? = some c.remaining :=
  c.sliceFrom?_scanner c.column

/-- The scanner looks for the next character where the cursor does. -/
theorem nextStart?_scanner (c : Cursor) : c.scanner.nextStart? = some (c.byteAt c.nextColumn) := by
  have hblanks : c.text.drop c.column = c.remaining.takeWhile isBlank ++
      c.remaining.dropWhile isBlank := List.takeWhile_append_dropWhile.symm
  rw [Scanner.nextStart?, remaining?_scanner, Option.map_some, byteLength_sub_trimStart, nextColumn,
    byteAt_add hblanks]
  rfl

/-- What the scanner cuts out behind the blanks is what the cursor looks at. -/
theorem sliceFrom?_nextColumn (c : Cursor) :
    c.scanner.sliceFrom? (c.byteAt c.nextColumn) = some c.ahead := by
  rw [sliceFrom?_scanner, ahead_eq_drop]

/-- A text without blanks at either end is empty if it is without leading blanks. -/
theorem isEmpty_trim (cs : List Char) : (trim cs).isEmpty = (trimStart cs).isEmpty := by
  rw [Bool.eq_iff_iff, List.isEmpty_iff, List.isEmpty_iff]
  constructor
  · intro h
    by_contra hne
    obtain ⟨first, others, hcs⟩ := List.exists_cons_of_ne_nil hne
    -- A leading character that is not blank is not trimmed at the end either.
    have hvisible : isBlank first = false :=
      stops_dropWhile isBlank cs first (by rw [trimStart] at hcs; rw [hcs]; rfl)
    have hhead : (trimEnd (trimStart cs)).head? = some first :=
      head?_trimEnd (by rw [hcs]; rfl) hvisible
    rw [trim] at h
    rw [h] at hhead
    cases hhead
  · intro h
    rw [trim, h]
    rfl

theorem isEmpty?_scanner (c : Cursor) : c.scanner.isEmpty? = some c.isEmpty := by
  rw [Scanner.isEmpty?, remaining?_scanner, Option.map_some, isEmpty_trim]
  rfl

theorem isCommented?_scanner (c : Cursor) : c.scanner.isCommented? = some c.isCommented := by
  rw [Scanner.isCommented?, remaining?_scanner, Option.map_some]
  rfl

theorem isIgnored?_scanner (c : Cursor) : c.scanner.isIgnored? = some c.isIgnored := by
  simp [Scanner.isIgnored?, isEmpty?_scanner, isCommented?_scanner, isIgnored]

theorem lineRange?_scanner (c : Cursor) : c.scanner.lineRange? = some c.lineRange := by
  have hend : c.scanner.column? (byteLength c.scanner.text) = some c.text.length := by
    rw [← column?_scanner (c := c) le_rfl, byteAt_length]
    rfl
  rw [Scanner.lineRange?, hend]
  rfl

/-- The first column that is not blank is on the row. -/
theorem firstColumn_le_length (c : Cursor) : c.firstColumn ≤ c.text.length :=
  (List.takeWhile_prefix isBlank).length_le

theorem trimmedRange?_scanner (c : Cursor) : c.scanner.trimmedRange? = some c.trimmedRange :=
  byteRange?_scanner c.firstColumn_le_length c.lastColumn_le_length

theorem restOfLine?_scanner (h : c.column ≤ c.text.length) :
    c.scanner.restOfLine? = some c.restOfLine := by
  rw [Scanner.restOfLine?, nextStart?_scanner]
  show c.scanner.byteRange? (c.byteAt c.nextColumn) (byteLength c.text) = _
  rw [← byteAt_length]
  exact byteRange?_scanner (nextColumn_le_length h) le_rfl

/-- The place that the rest of the row reaches to without trailing blanks. -/
theorem max_textEnd (c : Cursor) : max c.scanner.textEnd (c.byteAt c.nextColumn) =
    c.byteAt (max c.lastColumn c.nextColumn) := (c.byteAt_max _ _).symm

theorem restOfText?_scanner (h : c.column ≤ c.text.length) :
    c.scanner.restOfText? = some c.restOfText := by
  rw [Scanner.restOfText?, nextStart?_scanner]
  show c.scanner.byteRange? (c.byteAt c.nextColumn) (max c.scanner.textEnd _) = _
  rw [max_textEnd]
  exact byteRange?_scanner (nextColumn_le_length h)
    (Nat.max_le.2 ⟨c.lastColumn_le_length, nextColumn_le_length h⟩)

theorem peek?_scanner (c : Cursor) : c.scanner.peek? = some c.peek := by
  simp only [Scanner.peek?, nextStart?_scanner, bind, Option.bind_some, sliceFrom?_nextColumn,
    TokenRule.kind?_eq]
  rfl

/-! ## Reading -/

/-- Reading a token with the rule of a kind answers what the cursor reads with the recogniser of the
kind, and stays or moves as the cursor does. -/
theorem next?_scanner (kind : Kind) (h : c.column ≤ c.text.length) :
    c.scanner.next? kind.rule = some ((c.next kind.recognise).map Prod.fst,
      (((c.next kind.recognise).map Prod.snd).getD c).scanner) := by
  simp only [Scanner.next?, nextStart?_scanner, bind, Option.bind_some, sliceFrom?_nextColumn,
    Kind.matches?_rule, next]
  cases hread : kind.recognise c.ahead with
  | none => rfl
  | some lexeme =>
    obtain ⟨-, rest, hahead, -⟩ := kind.recognises.sound hread
    -- The token stands behind the blanks, and ends on the row.
    have htoken : c.text.drop c.nextColumn = lexeme.text ++ rest := by rw [← ahead_eq_drop, hahead]
    have hstop : c.nextColumn + lexeme.text.length ≤ c.text.length := by
      have hlength := congrArg List.length htoken
      rw [List.length_drop, List.length_append] at hlength
      have hnext := nextColumn_le_length h
      omega
    have hrange := byteRange?_scanner (nextColumn_le_length h) hstop
    simp only [Option.map_some, Option.getD_some, Scanner.byteRange?_offset, ← byteAt_add htoken,
      hrange, Option.bind_some]
    rfl

/-- Reading a comment answers what the cursor reads, and stays or moves as the cursor does. -/
theorem comment?_scanner (h : c.column ≤ c.text.length) :
    c.scanner.comment? = some (c.comment.map Prod.fst,
      ((c.comment.map Prod.snd).getD c).scanner) := by
  have hstop : max c.lastColumn c.nextColumn ≤ c.text.length :=
    Nat.max_le.2 ⟨c.lastColumn_le_length, nextColumn_le_length h⟩
  have hrange := byteRange?_scanner (nextColumn_le_length h) hstop
  have hslice := slice?_scanner (c := c) (Nat.le_max_right c.lastColumn c.nextColumn)
  simp only [Scanner.comment?, isCommented?_scanner, comment, bind, Option.bind_some]
  by_cases hcommented : c.isCommented = true
  · simp only [hcommented, nextStart?_scanner, max_textEnd, Option.bind_some, hslice, hrange,
      Scanner.byteRange?_offset]
    rfl
  · rw [Bool.not_eq_true] at hcommented
    simp only [hcommented]
    rfl

/-- The scanner at the start of a row belongs to the cursor there. -/
theorem ofRow_scanner (row : Nat) (text : String) :
    Scanner.ofRow row text = (ofRow row text).map scanner := by
  generalize hcs : text.toList = cs
  have htake {part : List Char} (hpart : part <+: cs) : cs.take part.length = part :=
    (List.prefix_iff_eq_take.1 hpart).symm
  -- The text starts behind the leading blanks, and ends in front of the trailing ones.
  have hstart : byteLength cs - byteLength (trimStart cs) =
      byteLength (cs.take (cs.takeWhile isBlank).length) := by
    rw [byteLength_sub_trimStart, htake (List.takeWhile_prefix isBlank)]
  have hend : byteLength (trimEnd cs) = byteLength (cs.take (trimEnd cs).length) := by
    obtain ⟨blanks, hsplit, -⟩ := exists_trimEnd cs
    rw [htake ⟨blanks, hsplit.symm⟩]
  have hmax := byteAt_max ⟨row, cs, 0⟩ (trimEnd cs).length (cs.takeWhile isBlank).length
  unfold Scanner.ofRow ofRow
  simp only [hcs, hstart, hend]
  split_ifs with hbreak
  · rfl
  · show Except.ok (Scanner.mk cs row 0 _ _) = Except.ok (scanner ⟨row, cs, 0⟩)
    congr 2
    exact hmax.symm

end Cursor

end ItemFilter
