import ItemFilter.Proofs.Spelling
import ItemFilter.Proofs.Strings

/-!
# Tokens one behind the other

Where the tokens of a row lie. A list of ranges is tiled between two columns of a row when the
ranges hold at least one character each, come one behind the other, and have only blanks between
them (`Tiled`). Everything about the places of tokens follows from this one relation: tiled ranges
lie on their row, do not overlap (`Tiled.pairwise`), and leave out no character that is not blank
(`Tiled.exists_covering`).

A cursor that moves over tokens tiles what it moves over (`Cursor.Reaches`), and the text in the
range of a token spells the token's value (`Cursor.next_reaches`). A comment, and what is left of a
row that is not blank, reach to the end of the row but for blanks (`Cursor.tiled_restOfText`).
-/

namespace ItemFilter

open Text Lexeme

/-! ## Ranges on a row -/

namespace Range

/-- The characters of a row that stand in the columns of a range. -/
def cut (text : List Char) (r : Range) : List Char :=
  (text.take r.stop.column).drop r.start.column

/-- A range lies on a row of a given width, and is not reversed. -/
structure Within (row width : Nat) (r : Range) : Prop where
  start_row : r.start.row = row
  stop_row : r.stop.row = row
  start_le : r.start.column ≤ r.stop.column
  stop_le : r.stop.column ≤ width

/-- Two ranges lie apart: one of them stops before the other starts. -/
def Apart (r s : Range) : Prop := r.stop ≤ s.start ∨ s.stop ≤ r.start

/-- Lying apart does not depend on the order of the two ranges. -/
theorem Apart.symm {r s : Range} (h : r.Apart s) : s.Apart r := Or.symm h

/-- A range between two columns lies on its row. -/
theorem within_onRow {row start stop width : Nat} (hle : start ≤ stop) (hwidth : stop ≤ width) :
    (onRow row start stop).Within row width :=
  ⟨rfl, rfl, hle, hwidth⟩

end Range

/-- Only blanks stand between two columns of a row. -/
def BlankBetween (text : List Char) (start stop : Nat) : Prop :=
  ∀ i c, start ≤ i → i < stop → text[i]? = some c → isBlank c = true

/-- Between fewer columns there are only blanks as well. -/
theorem BlankBetween.mono {text : List Char} {start start' stop : Nat}
    (h : BlankBetween text start stop) (hle : start ≤ start') : BlankBetween text start' stop :=
  fun i c hstart hstop hget => h i c (hle.trans hstart) hstop hget

/-- Ranges are tiled between two columns of a row: they hold at least one character each, come one
behind the other, and only blanks stand between them. -/
inductive Tiled (row : Nat) (text : List Char) : Nat → List Range → Nat → Prop
  /-- There is no range, and nothing to be tiled. -/
  | nil (column : Nat) : Tiled row text column [] column
  /-- Behind blanks comes a first range, and behind it the others. -/
  | cons {column start stop last : Nat} {ranges : List Range} :
    column ≤ start → BlankBetween text column start → start < stop → stop ≤ text.length →
      Tiled row text stop ranges last → Tiled row text column (.onRow row start stop :: ranges) last

namespace Tiled

variable {row : Nat} {text : List Char} {column middle last : Nat} {ranges ranges' : List Range}

/-- One range behind blanks. -/
theorem single {start stop : Nat} (hle : column ≤ start) (hblank : BlankBetween text column start)
    (hlt : start < stop) (hlength : stop ≤ text.length) :
    Tiled row text column [.onRow row start stop] stop :=
  .cons hle hblank hlt hlength (.nil stop)

/-- Ranges that are tiled up to a column and from there on are tiled together. -/
theorem append (h : Tiled row text column ranges middle) (h' : Tiled row text middle ranges' last) :
    Tiled row text column (ranges ++ ranges') last := by
  induction h with
  | nil => exact h'
  | cons hle hblank hlt hlength _ ih => exact .cons hle hblank hlt hlength (ih h')

/-- Tiles do not go back. -/
theorem le (h : Tiled row text column ranges last) : column ≤ last := by
  induction h with
  | nil => exact le_rfl
  | cons hle _ hlt _ _ ih => omega

/-- Tiles do not go beyond the end of the row. -/
theorem le_length (h : Tiled row text column ranges last) (hcolumn : column ≤ text.length) :
    last ≤ text.length := by
  induction h with
  | nil => exact hcolumn
  | cons _ _ _ hlength _ ih => exact ih hlength

/-- Every tile lies on the row, between the two columns, and holds a character. -/
theorem mem (h : Tiled row text column ranges last) {r : Range} (hr : r ∈ ranges) :
    r.Within row text.length ∧ column ≤ r.start.column ∧ r.start.column < r.stop.column ∧
      r.stop.column ≤ last := by
  induction h with
  | nil => cases hr
  | @cons column start stop last ranges hle _ hlt hlength htiled ih =>
    rcases List.mem_cons.1 hr with rfl | hr
    · exact ⟨Range.within_onRow hlt.le hlength, hle, hlt, htiled.le⟩
    · obtain ⟨hwithin, hstart, hrest⟩ := ih hr
      exact ⟨hwithin, by omega, hrest⟩

/-- Every tile stops before the next ones start. -/
theorem pairwise (h : Tiled row text column ranges last) :
    ranges.Pairwise fun r s => r.stop ≤ s.start := by
  induction h with
  | nil => exact .nil
  | @cons column start stop last ranges _ _ _ _ htiled ih =>
    refine .cons (fun s hs => ?_) ih
    obtain ⟨hwithin, hstart, -⟩ := htiled.mem hs
    exact .inr ⟨hwithin.start_row.symm, hstart⟩

/-- Tiles are in different places. -/
theorem nodup (h : Tiled row text column ranges last) : ranges.Nodup := by
  refine h.pairwise.imp_of_mem fun {r s} hr _ hle heq => ?_
  obtain ⟨hwithin, -, hlt, -⟩ := h.mem hr
  subst heq
  rcases hle with hrow | ⟨-, hcolumn⟩
  · rw [hwithin.start_row, hwithin.stop_row] at hrow
    exact Nat.lt_irrefl row hrow
  · omega

/-- Every character between the two columns that is not blank stands in a tile. -/
theorem exists_covering (h : Tiled row text column ranges last) {i : Nat} {c : Char}
    (hcolumn : column ≤ i) (hlast : i < last) (hget : text[i]? = some c)
    (hvisible : isBlank c = false) : ∃ r ∈ ranges, r.start.column ≤ i ∧ i < r.stop.column := by
  induction h with
  | nil => omega
  | @cons column start stop last ranges hle hblank hlt hlength htiled ih =>
    by_cases hbefore : i < start
    · -- In front of the first tile there are only blanks.
      rw [hblank i c hcolumn hbefore hget] at hvisible
      cases hvisible
    · by_cases hinside : i < stop
      · exact ⟨_, List.mem_cons_self, Nat.le_of_not_lt hbefore, hinside⟩
      · obtain ⟨r, hr, hcovers⟩ := ih (Nat.le_of_not_lt hinside) hlast
        exact ⟨r, List.mem_cons_of_mem _ hr, hcovers⟩

end Tiled

/-- A comment spells itself, its `#` included. -/
def SpellsComment (token : List Char) (text : String) : Prop :=
  token = text.toList ∧ token.head? = some '#'

/-! ## Moving a cursor -/

namespace Cursor

/-- A cursor reaches another place of its row by moving over tokens with these ranges. -/
structure Reaches (c : Cursor) (ranges : List Range) (c' : Cursor) : Prop where
  row_eq : c'.row = c.row
  text_eq : c'.text = c.text
  tiled : Tiled c.row c.text c.column ranges c'.column

/-- A cursor is where it is. -/
theorem Reaches.refl (c : Cursor) : c.Reaches [] c := ⟨rfl, rfl, .nil _⟩

/-- Moving on from a place that was reached. -/
theorem Reaches.trans {c c' c'' : Cursor} {ranges ranges' : List Range} (h : c.Reaches ranges c')
    (h' : c'.Reaches ranges' c'') : c.Reaches (ranges ++ ranges') c'' where
  row_eq := h'.row_eq.trans h.row_eq
  text_eq := h'.text_eq.trans h.text_eq
  tiled := by
    have htiled := h'.tiled
    rw [h.row_eq, h.text_eq] at htiled
    exact h.tiled.append htiled

/-- Only blanks stand between the cursor and the next character that is not blank. -/
theorem blankBetween_nextColumn (c : Cursor) : BlankBetween c.text c.column c.nextColumn := by
  intro i ch hcolumn hnext hget
  have hlt : i - c.column < (c.remaining.takeWhile isBlank).length := by
    unfold nextColumn at hnext
    omega
  have hremaining : c.remaining[i - c.column]? = some ch := by
    rw [remaining, List.getElem?_drop, Nat.add_sub_cancel' hcolumn, hget]
  rw [← List.takeWhile_append_dropWhile (p := isBlank) (l := c.remaining),
    List.getElem?_append_left hlt] at hremaining
  exact List.mem_takeWhile_imp (List.mem_of_getElem? hremaining)

/-- The next column is not in front of the cursor. -/
theorem column_le_nextColumn (c : Cursor) : c.column ≤ c.nextColumn := Nat.le_add_right _ _

/-- The next column is on the row. -/
theorem nextColumn_le_length {c : Cursor} (h : c.column ≤ c.text.length) :
    c.nextColumn ≤ c.text.length := by
  have hrun := (List.takeWhile_prefix isBlank (l := c.remaining)).length_le
  have hremaining : c.remaining.length = c.text.length - c.column := List.length_drop
  unfold nextColumn
  omega

section Next

variable {α : Type} {recognise : List Char → Option (Lexeme α)} {Spells : List Char → α → Prop}
  {Ends : List Char → Prop}

/-- A query that finds a token moves the cursor over the token's range, and the text in that range
spells the token's value. -/
theorem next_reaches (hrec : Recognises recognise Spells Ends)
    (hvisible : ∀ {token value}, Spells token value → IsVisible token) {c c' : Cursor}
    {t : Token α} (h : c.next recognise = some (t, c')) :
    c.Reaches [t.range] c' ∧ Spells (t.range.cut c.text) t.value := by
  obtain ⟨lexeme, hlexeme, heq⟩ := Option.map_eq_some_iff.1 h
  obtain ⟨rfl, rfl⟩ := Prod.mk.inj heq
  obtain ⟨hspells, rest, hahead, -⟩ := hrec.sound hlexeme
  obtain ⟨first, others, htext, -⟩ := hvisible hspells
  rw [ahead_eq_drop] at hahead
  have hpos : 0 < lexeme.text.length := by rw [htext]; exact Nat.succ_pos _
  have hlength : c.text.length - c.nextColumn = lexeme.text.length + rest.length := by
    rw [← List.length_drop, hahead, List.length_append]
  have hcut : (Range.onRow c.row c.nextColumn (c.nextColumn + lexeme.text.length)).cut c.text =
      lexeme.text := by
    show (c.text.take (c.nextColumn + lexeme.text.length)).drop c.nextColumn = lexeme.text
    rw [List.drop_take, Nat.add_sub_cancel_left, hahead, List.take_left]
  refine ⟨⟨rfl, rfl, ?_⟩, ?_⟩
  · exact .single c.column_le_nextColumn c.blankBetween_nextColumn (by omega) (by omega)
  · exact hcut.symm ▸ hspells

end Next

/-- The strings that are read one after the other are moved over, and each is spelled in its
range. -/
theorem strings_reaches (c : Cursor) :
    c.Reaches (c.strings.1.map Token.range) c.strings.2 ∧
      ∀ t ∈ c.strings.1, SpellsString (t.range.cut c.text) t.value := by
  fun_induction strings c with
  | case1 c hnone => exact ⟨.refl c, nofun⟩
  | case2 c t c' hsome tokens last hstrings ih =>
    obtain ⟨hfirst, hspells⟩ :=
      next_reaches recognises_string (fun h => IsString.isVisible ⟨_, h⟩) hsome
    obtain ⟨hrest, hspells'⟩ := ih
    rw [hstrings] at hrest hspells'
    rw [hfirst.text_eq] at hspells'
    exact ⟨hfirst.trans hrest, List.forall_mem_cons.2 ⟨hspells, hspells'⟩⟩

/-! ### The end of the row -/

/-- Behind the last character of a text that is not blank there are only blanks. -/
theorem blankBetween_trimEnd (text : List Char) :
    BlankBetween text (trimEnd text).length text.length := by
  have hsplit : text = trimEnd text ++ (text.reverse.takeWhile isBlank).reverse := by
    rw [trimEnd, ← List.reverse_append, List.takeWhile_append_dropWhile, List.reverse_reverse]
  intro i c hstart _ hget
  rw [hsplit, List.getElem?_append_right hstart] at hget
  exact List.mem_takeWhile_imp (List.mem_reverse.1 (List.mem_of_getElem? hget))

/-- A text does not get longer when blanks are dropped at its end. -/
theorem length_trimEnd_le (text : List Char) : (trimEnd text).length ≤ text.length := by
  have hdrop := (List.dropWhile_suffix isBlank (l := text.reverse)).length_le
  rw [List.length_reverse] at hdrop
  rwa [trimEnd, List.length_reverse]

/-- The column behind the last character that is not blank is on the row. -/
theorem lastColumn_le_length (c : Cursor) : c.lastColumn ≤ c.text.length := by
  have hfirst : c.firstColumn ≤ c.text.length := (List.takeWhile_prefix isBlank).length_le
  have hlast := length_trimEnd_le c.text
  unfold lastColumn
  omega

/-- If nothing but blanks is left, there are only blanks up to the end of the row. -/
theorem blankBetween_of_isEmpty {c : Cursor} (h : c.isEmpty = true) :
    BlankBetween c.text c.column c.text.length := by
  have hnil : c.text.drop c.nextColumn = [] := by
    rw [← ahead_eq_drop]
    exact List.isEmpty_iff.1 h
  have hlength : c.text.length ≤ c.nextColumn := List.drop_eq_nil_iff.1 hnil
  intro i ch hcolumn hlt hget
  exact c.blankBetween_nextColumn i ch hcolumn (by omega) hget

/-- If anything but blanks is left, a character that is not blank stands in the next column. -/
theorem nextColumn_visible {c : Cursor} (h : c.isEmpty = false) :
    ∃ ch, c.text[c.nextColumn]? = some ch ∧ isBlank ch = false ∧ c.ahead.head? = some ch := by
  obtain ⟨ch, rest, hahead⟩ := List.exists_cons_of_ne_nil (List.isEmpty_eq_false_iff.1 h)
  have hhead : c.ahead.head? = some ch := by rw [hahead]; rfl
  refine ⟨ch, ?_, stops_dropWhile isBlank c.remaining ch hhead, hhead⟩
  rw [← hhead, ahead_eq_drop, List.head?_drop]

/-- What is left of a row that has anything but blanks left is one tile, behind which there are only
blanks. -/
theorem tiled_restOfText {c : Cursor} (h : c.isEmpty = false) :
    Tiled c.row c.text c.column [c.restOfText] (max c.lastColumn c.nextColumn) ∧
      BlankBetween c.text (max c.lastColumn c.nextColumn) c.text.length := by
  obtain ⟨ch, hget, hvisible, -⟩ := nextColumn_visible h
  have hnext : c.nextColumn < c.text.length := (List.getElem?_eq_some_iff.1 hget).1
  have hlast := c.lastColumn_le_length
  have htrim : (trimEnd c.text).length ≤ c.lastColumn := Nat.le_max_left _ _
  -- The character in the next column is not behind the last one that is not blank.
  have hlt : c.nextColumn < (trimEnd c.text).length := by
    by_contra hle
    rw [blankBetween_trimEnd c.text _ ch (Nat.le_of_not_lt hle) hnext hget] at hvisible
    cases hvisible
  refine ⟨.single c.column_le_nextColumn c.blankBetween_nextColumn (by omega) (by omega), ?_⟩
  exact (blankBetween_trimEnd c.text).mono (by omega)

/-- A comment is all that is left of its row but for blanks, and it spells itself there. -/
theorem comment_reaches {c c' : Cursor} {t : Token String} (h : c.comment = some (t, c')) :
    c.Reaches [t.range] c' ∧ BlankBetween c.text c'.column c.text.length ∧
      SpellsComment (t.range.cut c.text) t.value := by
  unfold comment at h
  split_ifs at h with hcommented
  obtain ⟨rfl, rfl⟩ := Prod.mk.inj (Option.some.inj h)
  have hhash : c.ahead.head? = some '#' := beq_iff_eq.1 hcommented
  have hempty : c.isEmpty = false := by
    rw [isEmpty, List.isEmpty_eq_false_iff]
    intro hnil
    rw [hnil] at hhash
    cases hhash
  obtain ⟨htiled, hblank⟩ := tiled_restOfText hempty
  have hlt : c.nextColumn < max c.lastColumn c.nextColumn :=
    (htiled.mem List.mem_cons_self).2.2.1
  refine ⟨⟨rfl, rfl, htiled⟩, hblank, String.toList_ofList.symm, ?_⟩
  show ((c.text.take (max c.lastColumn c.nextColumn)).drop c.nextColumn).head? = some '#'
  rw [List.head?_drop, List.getElem?_take_of_lt hlt, ← List.head?_drop, ← ahead_eq_drop, hhash]

/-- A comment is what is left of its row without the blanks around it. -/
theorem comment_eq {c : Cursor} (h : c.isCommented = true) :
    ∃ last, c.comment = some (⟨String.ofList (trimEnd c.ahead),
      c.columns c.nextColumn (c.nextColumn + (trimEnd c.ahead).length)⟩, last) := by
  have hhash : c.ahead.head? = some '#' := beq_iff_eq.1 h
  have hvisible : ∃ ch ∈ c.ahead, isBlank ch = false :=
    ⟨'#', List.mem_of_head? hhash, by decide⟩
  obtain ⟨blanks, hahead, -⟩ := exists_trimEnd c.ahead
  have hdrop := c.ahead_eq_drop
  have hlength : c.nextColumn ≤ c.text.length := by
    by_contra hlt
    rw [List.drop_eq_nil_of_le (by omega)] at hdrop
    rw [hdrop] at hhash
    cases hhash
  -- The last character that is not blank is that of the comment.
  have htrim : (trimEnd c.text).length = c.nextColumn + (trimEnd c.ahead).length := by
    rw [← List.take_append_drop c.nextColumn c.text, ← hdrop, trimEnd_append_visible hvisible,
      List.length_append, List.length_take, Nat.min_eq_left hlength]
  have hfirst : c.firstColumn ≤ c.nextColumn := by
    by_contra hlt
    have hget : c.text[c.nextColumn]? = some '#' := by rw [← List.head?_drop, ← hdrop, hhash]
    rw [← List.takeWhile_append_dropWhile (p := isBlank) (l := c.text),
      List.getElem?_append_left (Nat.lt_of_not_le hlt)] at hget
    have hblank := List.mem_takeWhile_imp (List.mem_of_getElem? hget)
    revert hblank
    decide
  have hstop : max c.lastColumn c.nextColumn = c.nextColumn + (trimEnd c.ahead).length := by
    unfold lastColumn
    omega
  have htext : (c.text.take (c.nextColumn + (trimEnd c.ahead).length)).drop c.nextColumn =
      trimEnd c.ahead := by
    rw [List.drop_take, Nat.add_sub_cancel_left, ← hdrop]
    nth_rewrite 2 [hahead]
    exact List.take_left
  unfold comment
  rw [if_pos h, hstop]
  dsimp only
  rw [htext]
  exact ⟨_, rfl⟩

end Cursor

end ItemFilter
