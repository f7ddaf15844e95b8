import ItemFilter.Listing
import ItemFilter.Proofs.Retention
import ItemFilter.Proofs.Unplaced

/-!
# Moving lines up and down

What moving a line by a number of rows does to lines of every shape, whether they were read or not.
`Line.Moved` says it part by part, without reference to how a line is moved: nothing differs but
rows, and every row is where it was plus the distance, or at the end of the 64-bit words if that is
beyond them. A line is moved in this way by `Line.shiftRows`, and there is only one line that it can
be moved to (`Line.moved_iff`).

Rows move like integers as long as none of them stops at an end (`shiftRow_shiftRow`). Then two
moves are one, a move can be undone, and to move a line by no row at all is to leave it alone
(`Line.shiftRows_shiftRows`, `Line.shiftRows_neg`, `Line.shiftRows_zero`); so a splice that moves
the lines below it only if it has to is one that always moves them
(`Source.splice_eq_spliceMoving`).
What is written out of a line has columns in it but no rows (`Line.entries_shiftRows`).
-/

namespace ItemFilter

/-! ## Lines that differ in their rows -/

section Moved

variable (delta : Int)

/-- A row is moved to another: to the row at the given distance, or to the first or the last of the
64-bit words if that is outside of them. -/
def RowMoved (row row' : Nat) : Prop := (row' : Int) = min (max (row + delta) 0) (2 ^ 64 - 1)

/-- A range is moved to another: its rows are, and its columns are the same. -/
structure Range.Moved (r r' : Range) : Prop where
  start_row : RowMoved delta r.start.row r'.start.row
  start_column : r'.start.column = r.start.column
  stop_row : RowMoved delta r.stop.row r'.stop.row
  stop_column : r'.stop.column = r.stop.column

/-- A token is moved to another. -/
structure Token.Moved {α : Type} (t t' : Token α) : Prop where
  value_eq : t'.value = t.value
  range : t.range.Moved delta t'.range

/-- A diagnostic is moved to another. -/
structure Diagnostic.Moved (d d' : Diagnostic) : Prop where
  excerpt_eq : d'.excerpt = d.excerpt
  description_eq : d'.description = d.description
  file_eq : d'.file = d.file
  url_eq : d'.url = d.url
  range : d.range.Moved delta d'.range
  solution_eq : d'.solution = d.solution

/-- The diagnostics of a line are moved, those of each severity. -/
structure Messages.Moved (m m' : Messages) : Prop where
  errors : List.Forall₂ (Diagnostic.Moved delta) m.errors m'.errors
  warnings : List.Forall₂ (Diagnostic.Moved delta) m.warnings m'.warnings
  info : List.Forall₂ (Diagnostic.Moved delta) m.info m'.info

/-- A token that may be missing is moved if it is there. -/
def Token.MovedIfAny {α : Type} : Option (Token α) → Option (Token α) → Prop :=
  Option.Rel (Token.Moved delta)

/-- A colour is moved to another: all its channels are. -/
structure Color.Moved (c c' : Color) : Prop where
  red : c.red.Moved delta c'.red
  green : c.green.Moved delta c'.green
  blue : c.blue.Moved delta c'.blue
  alpha : Token.MovedIfAny delta c.alpha c'.alpha

/-- An alert sound is moved to another. -/
structure AlertSound.Moved (s s' : AlertSound) : Prop where
  id : s.id.Moved delta s'.id
  volume : Token.MovedIfAny delta s.volume s'.volume

/-- An argument is moved to another of the same shape. -/
inductive Argument.Moved : Argument → Argument → Prop
  | number {t t'} : Token.MovedIfAny delta t t' → Moved (.number t) (.number t')
  | rarity {t t'} : Token.MovedIfAny delta t t' → Moved (.rarity t) (.rarity t')
  | socketGroup {t t'} : Token.MovedIfAny delta t t' → Moved (.socketGroup t) (.socketGroup t')
  | boolean {t t'} : Token.MovedIfAny delta t t' → Moved (.boolean t) (.boolean t')
  | names {ts ts'} : List.Forall₂ (Token.Moved delta) ts ts' → Moved (.names ts) (.names ts')
  | color {c c'} : Option.Rel (Color.Moved delta) c c' → Moved (.color c) (.color c')
  | sound {s s'} : Option.Rel (AlertSound.Moved delta) s s' → Moved (.sound s) (.sound s')
  | fontSize {t t'} : Token.MovedIfAny delta t t' → Moved (.fontSize t) (.fontSize t')
  | soundFile {t t'} : Token.MovedIfAny delta t t' → Moved (.soundFile t) (.soundFile t')
  | flag : Moved .flag .flag

/-- A block header is moved to another. -/
structure Header.Moved (h h' : Header) : Prop where
  keyword : h.keyword.Moved delta h'.keyword
  comment : Token.MovedIfAny delta h.comment h'.comment

/-- A rule is moved to another. -/
structure Rule.Moved (r r' : Rule) : Prop where
  name : r.name.Moved delta r'.name
  operator : Token.MovedIfAny delta r.operator r'.operator
  argument : r.argument.Moved delta r'.argument
  comment : Token.MovedIfAny delta r.comment r'.comment

/-- What a row is, is moved to the same in another place. -/
inductive LineKind.Moved : LineKind → LineKind → Prop
  | empty : Moved .empty .empty
  | comment {t t'} : t.Moved delta t' → Moved (.comment t) (.comment t')
  | block {h h'} : h.Moved delta h' → Moved (.block h) (.block h')
  | rule {r r'} : r.Moved delta r' → Moved (.rule r) (.rule r')
  | unknown {t t'} : Token.MovedIfAny delta t t' → Moved (.unknown t) (.unknown t')

/-- A line is moved to another: every row in it is moved, and nothing else differs. -/
structure Line.Moved (line line' : Line) : Prop where
  range : line.range.Moved delta line'.range
  invalid_eq : line'.invalid = line.invalid
  messages : line.messages.Moved delta line'.messages
  kind : line.kind.Moved delta line'.kind

end Moved

/-! ## Moving is one function -/

section Graphs

variable {α : Type} {R : α → α → Prop} {f : α → α}

/-- A relation that is a function is one on values that may be missing. -/
theorem optionRel_iff (h : ∀ a b, R a b ↔ b = f a) {x y : Option α} :
    Option.Rel R x y ↔ y = x.map f := by
  cases x <;> cases y <;> simp [h]

/-- A relation that is a function is one on lists, element by element. -/
theorem forall₂_iff (h : ∀ a b, R a b ↔ b = f a) {xs ys : List α} :
    List.Forall₂ R xs ys ↔ ys = xs.map f := by
  have hR : R = fun a b => f a = b := by
    funext a b
    rw [h, eq_comm (a := b)]
  rw [hR, ← List.forall₂_map_left_iff, List.forall₂_eq_eq_eq, eq_comm]

end Graphs

variable {delta : Int}

/-- Rows are moved by adding the distance and stopping at the ends. -/
theorem rowMoved_iff {row row' : Nat} : RowMoved delta row row' ↔ row' = shiftRow delta row := by
  have hmax : (maxRow : Int) = 2 ^ 64 - 1 := rfl
  unfold RowMoved shiftRow
  omega

/-- Ranges are moved by their rows. -/
theorem Range.moved_iff {r r' : Range} : r.Moved delta r' ↔ r' = r.shiftRows delta := by
  constructor
  · rintro ⟨hstart, hstart', hstop, hstop'⟩
    calc r' = ⟨⟨r'.start.row, r'.start.column⟩, ⟨r'.stop.row, r'.stop.column⟩⟩ := rfl
      _ = r.shiftRows delta := by
        rw [rowMoved_iff.1 hstart, rowMoved_iff.1 hstop, hstart', hstop', shiftRows]
  · rintro rfl
    exact ⟨rowMoved_iff.2 rfl, rfl, rowMoved_iff.2 rfl, rfl⟩

/-- Tokens are moved by their ranges. -/
theorem Token.moved_iff {α : Type} {t t' : Token α} :
    t.Moved delta t' ↔ t' = t.mapRange (.shiftRows delta) := by
  constructor
  · rintro ⟨hvalue, hrange⟩
    calc t' = ⟨t'.value, t'.range⟩ := rfl
      _ = t.mapRange (.shiftRows delta) := by rw [hvalue, Range.moved_iff.1 hrange, mapRange]
  · rintro rfl
    exact ⟨rfl, Range.moved_iff.2 rfl⟩

/-- Tokens that may be missing are moved by their ranges. -/
theorem Token.movedIfAny_iff {α : Type} {t t' : Option (Token α)} :
    MovedIfAny delta t t' ↔ t' = t.map (·.mapRange (.shiftRows delta)) :=
  optionRel_iff (@Token.moved_iff delta α)

/-- Diagnostics are moved by their ranges. -/
theorem Diagnostic.moved_iff {d d' : Diagnostic} :
    d.Moved delta d' ↔ d' = d.mapRange (.shiftRows delta) := by
  constructor
  · rintro ⟨hexcerpt, hdescription, hfile, hurl, hrange, hsolution⟩
    calc d' = ⟨d'.excerpt, d'.description, d'.file, d'.url, d'.range, d'.solution⟩ := rfl
      _ = d.mapRange (.shiftRows delta) := by
        rw [hexcerpt, hdescription, hfile, hurl, Range.moved_iff.1 hrange, hsolution, mapRange]
  · rintro rfl
    exact ⟨rfl, rfl, rfl, rfl, Range.moved_iff.2 rfl, rfl⟩

/-- The diagnostics of a line are moved by their ranges. -/
theorem Messages.moved_iff {m m' : Messages} :
    m.Moved delta m' ↔ m' = m.mapRanges (.shiftRows delta) := by
  have hlist {ds ds' : List Diagnostic} : List.Forall₂ (Diagnostic.Moved delta) ds ds' ↔
      ds' = ds.map (·.mapRange (.shiftRows delta)) := forall₂_iff (@Diagnostic.moved_iff delta)
  constructor
  · rintro ⟨herrors, hwarnings, hinfo⟩
    calc m' = ⟨m'.errors, m'.warnings, m'.info⟩ := rfl
      _ = m.mapRanges (.shiftRows delta) := by
        rw [hlist.1 herrors, hlist.1 hwarnings, hlist.1 hinfo, mapRanges]
  · rintro rfl
    exact ⟨hlist.2 rfl, hlist.2 rfl, hlist.2 rfl⟩

/-- Colours are moved by the ranges of their channels. -/
theorem Color.moved_iff {c c' : Color} :
    c.Moved delta c' ↔ c' = c.mapRanges (.shiftRows delta) := by
  constructor
  · rintro ⟨hred, hgreen, hblue, halpha⟩
    calc c' = ⟨c'.red, c'.green, c'.blue, c'.alpha⟩ := rfl
      _ = c.mapRanges (.shiftRows delta) := by
        rw [Token.moved_iff.1 hred, Token.moved_iff.1 hgreen, Token.moved_iff.1 hblue,
          Token.movedIfAny_iff.1 halpha, mapRanges]
  · rintro rfl
    exact ⟨Token.moved_iff.2 rfl, Token.moved_iff.2 rfl, Token.moved_iff.2 rfl,
      Token.movedIfAny_iff.2 rfl⟩

/-- Alert sounds are moved by the ranges of their parts. -/
theorem AlertSound.moved_iff {s s' : AlertSound} :
    s.Moved delta s' ↔ s' = s.mapRanges (.shiftRows delta) := by
  constructor
  · rintro ⟨hid, hvolume⟩
    calc s' = ⟨s'.id, s'.volume⟩ := rfl
      _ = s.mapRanges (.shiftRows delta) := by
        rw [Token.moved_iff.1 hid, Token.movedIfAny_iff.1 hvolume, mapRanges]
  · rintro rfl
    exact ⟨Token.moved_iff.2 rfl, Token.movedIfAny_iff.2 rfl⟩

/-- Arguments are moved by the ranges of their tokens. -/
theorem Argument.moved_iff {a a' : Argument} :
    a.Moved delta a' ↔ a' = a.mapRanges (.shiftRows delta) := by
  constructor
  · intro h
    cases h with
    | number h | rarity h | socketGroup h | boolean h | fontSize h | soundFile h =>
      rw [Token.movedIfAny_iff.1 h, mapRanges]
    | names h => rw [(forall₂_iff (@Token.moved_iff delta String)).1 h, mapRanges]
    | color h => rw [(optionRel_iff (@Color.moved_iff delta)).1 h, mapRanges]
    | sound h => rw [(optionRel_iff (@AlertSound.moved_iff delta)).1 h, mapRanges]
    | flag => rfl
  · rintro rfl
    cases a with
    | number token => exact .number (Token.movedIfAny_iff.2 rfl)
    | rarity token => exact .rarity (Token.movedIfAny_iff.2 rfl)
    | socketGroup token => exact .socketGroup (Token.movedIfAny_iff.2 rfl)
    | boolean token => exact .boolean (Token.movedIfAny_iff.2 rfl)
    | names tokens => exact .names ((forall₂_iff (@Token.moved_iff delta String)).2 rfl)
    | color c => exact .color ((optionRel_iff (@Color.moved_iff delta)).2 rfl)
    | sound s => exact .sound ((optionRel_iff (@AlertSound.moved_iff delta)).2 rfl)
    | fontSize token => exact .fontSize (Token.movedIfAny_iff.2 rfl)
    | soundFile token => exact .soundFile (Token.movedIfAny_iff.2 rfl)
    | flag => exact .flag

/-- What a row is, is moved by the ranges of its tokens. -/
theorem LineKind.moved_iff {kind kind' : LineKind} :
    kind.Moved delta kind' ↔ kind' = kind.mapRanges (.shiftRows delta) := by
  constructor
  · intro h
    cases h with
    | empty => rfl
    | comment h => rw [Token.moved_iff.1 h, mapRanges]
    | @block h h' hmoved =>
      have hcomment := Token.movedIfAny_iff.1 hmoved.comment
      rw [mapRanges, ← Token.moved_iff.1 hmoved.keyword, ← hcomment]
    | @rule r r' hmoved =>
      have hoperator := Token.movedIfAny_iff.1 hmoved.operator
      have hcomment := Token.movedIfAny_iff.1 hmoved.comment
      rw [mapRanges, ← Token.moved_iff.1 hmoved.name, ← hoperator,
        ← Argument.moved_iff.1 hmoved.argument, ← hcomment]
    | unknown h => rw [Token.movedIfAny_iff.1 h, mapRanges]
  · rintro rfl
    cases kind with
    | empty => exact .empty
    | comment text => exact .comment (Token.moved_iff.2 rfl)
    | block header => exact .block ⟨Token.moved_iff.2 rfl, Token.movedIfAny_iff.2 rfl⟩
    | rule r =>
      exact .rule ⟨Token.moved_iff.2 rfl, Token.movedIfAny_iff.2 rfl, Argument.moved_iff.2 rfl,
        Token.movedIfAny_iff.2 rfl⟩
    | unknown word => exact .unknown (Token.movedIfAny_iff.2 rfl)

/-- A line is moved to one other line, which is the line with its rows shifted. -/
theorem Line.moved_iff {line line' : Line} :
    line.Moved delta line' ↔ line' = line.shiftRows delta := by
  constructor
  · rintro ⟨hrange, hinvalid, hmessages, hkind⟩
    calc line' = ⟨line'.range, line'.invalid, line'.messages, line'.kind⟩ := rfl
      _ = line.shiftRows delta := by
        rw [Range.moved_iff.1 hrange, hinvalid, Messages.moved_iff.1 hmessages,
          LineKind.moved_iff.1 hkind, shiftRows, mapRanges]
  · rintro rfl
    exact ⟨Range.moved_iff.2 rfl, rfl, Messages.moved_iff.2 rfl, LineKind.moved_iff.2 rfl⟩

/-! ## Moving twice -/

/-- Every row in a line. -/
def Line.allRows (line : Line) : List Nat :=
  line.ranges.flatMap fun r => [r.start.row, r.stop.row]

/-- All rows in a line are 64-bit words when a distance is added to them, so that none of them stops
at an end. -/
def Line.Fits (delta : Int) (line : Line) : Prop :=
  ∀ row ∈ line.allRows, 0 ≤ row + delta ∧ row + delta ≤ maxRow

instance (delta : Int) (line : Line) : Decidable (line.Fits delta) :=
  inferInstanceAs (Decidable (∀ row ∈ line.allRows, 0 ≤ row + delta ∧ row + delta ≤ maxRow))

/-- A row that does not stop at an end moves like an integer. -/
theorem shiftRow_shiftRow {a : Int} {row : Nat} (h : 0 ≤ row + a ∧ row + a ≤ maxRow) (b : Int) :
    shiftRow b (shiftRow a row) = shiftRow (a + b) row := by
  obtain ⟨hlo, hhi⟩ := h
  have hrow : (shiftRow a row : Int) = row + a := by
    unfold shiftRow
    omega
  unfold shiftRow at hrow ⊢
  rw [hrow, Int.add_assoc]

/-- A row among the 64-bit words stays where it is when it is moved by nothing. -/
theorem shiftRow_zero {row : Nat} (h : row + (0 : Int) ≤ maxRow) : shiftRow 0 row = row := by
  unfold shiftRow
  omega

namespace Line

variable {line : Line}

/-- Both rows of each range are rows of the line. -/
theorem Fits.ranges (h : line.Fits delta) {r : Range} (hr : r ∈ line.ranges) :
    (0 ≤ r.start.row + delta ∧ r.start.row + delta ≤ maxRow) ∧
      (0 ≤ r.stop.row + delta ∧ r.stop.row + delta ≤ maxRow) := by
  have hmem (row : Nat) (hrow : row ∈ [r.start.row, r.stop.row]) : row ∈ line.allRows :=
    List.mem_flatMap.2 ⟨r, hr, hrow⟩
  exact ⟨h _ (hmem _ (by simp)), h _ (hmem _ (by simp))⟩

/-- If no row stops at an end, moving twice is moving once. -/
theorem shiftRows_shiftRows {a : Int} (h : line.Fits a) (b : Int) :
    (line.shiftRows a).shiftRows b = line.shiftRows (a + b) := by
  unfold shiftRows
  rw [mapRanges_mapRanges]
  refine mapRanges_congr fun r hr => ?_
  obtain ⟨hstart, hstop⟩ := h.ranges hr
  simp only [Range.shiftRows, shiftRow_shiftRow hstart, shiftRow_shiftRow hstop]

/-- Moving a line by nothing leaves it alone. -/
theorem shiftRows_zero (h : line.Fits 0) : line.shiftRows 0 = line := by
  have hsame : ∀ r ∈ line.ranges, r.shiftRows 0 = id r := by
    intro r hr
    obtain ⟨⟨-, hstart⟩, ⟨-, hstop⟩⟩ := h.ranges hr
    rw [Range.shiftRows, shiftRow_zero hstart, shiftRow_zero hstop]
    rfl
  calc line.shiftRows 0 = line.mapRanges id := mapRanges_congr hsame
    _ = line := mapRanges_id line

/-- A move by which no row stops at an end can be undone. -/
theorem shiftRows_neg {a : Int} (hzero : line.Fits 0) (h : line.Fits a) :
    (line.shiftRows a).shiftRows (-a) = line := by
  rw [shiftRows_shiftRows h, Int.add_right_neg, shiftRows_zero hzero]

/-! ## What is written out of lines -/

/-- The summary of a line does not depend on its row. -/
theorem summary_shiftRows (delta : Int) (line : Line) :
    (line.shiftRows delta).summary = line.summary := by
  refine summary_of_unplaced ?_ rfl
  exact LineKind.mapRanges_mapRanges _ _ line.kind

/-- The entries of a line in an outline do not depend on its own row. -/
theorem entries_shiftRows (delta : Int) (line : Line) (row : Nat) :
    (line.shiftRows delta).entries row = line.entries row := by
  have hremark (severity : Severity) (d : Diagnostic) :
      remark severity (d.mapRange (.shiftRows delta)) = remark severity d := rfl
  have hmessages : (line.messages.mapRanges (.shiftRows delta)).toList.map
      (fun x => remark x.1 x.2) = line.messages.toList.map fun x => remark x.1 x.2 := by
    simp only [Messages.toList, Messages.mapRanges, List.map_append, List.map_map,
      Function.comp_def, hremark]
  unfold entries
  rw [summary_shiftRows]
  exact congrArg _ hmessages

end Line

/-- The outline of lines is the same wherever each of them is moved. -/
theorem outline_shiftRows (deltas : Nat → Int) (lines : List Line) :
    outline (lines.mapIdx fun i line => line.shiftRows (deltas i)) = outline lines := by
  have hzip : (lines.mapIdx fun i line => line.shiftRows (deltas i)).zipIdx =
      lines.zipIdx.map fun x => (x.1.shiftRows (deltas x.2), x.2) := by
    refine List.ext_getElem? fun i => ?_
    simp only [List.getElem?_zipIdx, List.getElem?_mapIdx, List.getElem?_map, Option.map_map,
      Function.comp_def, Nat.zero_add]
  unfold outline
  rw [hzip, List.flatMap_map]
  simp only [Line.entries_shiftRows]

/-! ## Splices -/

namespace Source

/-- A splice that moves the lines below a change in any case, also if they are to stay. -/
def spliceMoving (source : Source) (current : List String) (previous : List Line)
    (change : Change) : Except Misuse (List Line) :=
  let { startRow, oldExtent, newExtent } := change
  if startRow + oldExtent ≥ previous.length ∨ startRow + newExtent ≥ current.length then
    .error (.changeOutOfBounds startRow oldExtent newExtent previous.length current.length)
  else do
    let fresh ← source.readRows ((current.zipIdx.drop startRow).take (newExtent + 1))
    let below := previous.drop (startRow + oldExtent + 1)
    pure (previous.take startRow ++ fresh ++ below.map (Line.shiftRows change.rowDelta))

/-- A splice may leave lines alone that are to be moved by nothing, if their rows are 64-bit
words. -/
theorem splice_eq_spliceMoving (source : Source) (current : List String) {previous : List Line}
    (hwords : ∀ line ∈ previous, line.Fits 0) (change : Change) :
    source.splice current previous change = source.spliceMoving current previous change := by
  have hbelow (n : Nat) : (if change.rowDelta = 0 then previous.drop n
      else (previous.drop n).map (Line.shiftRows change.rowDelta)) =
        (previous.drop n).map (Line.shiftRows change.rowDelta) := by
    split_ifs with hzero
    · rw [hzero]
      refine (List.map_id _).symm.trans (List.map_congr_left fun line hline => ?_)
      exact (Line.shiftRows_zero (hwords line (List.mem_of_mem_drop hline))).symm
    · rfl
  unfold splice spliceMoving
  simp only [hbelow]

end Source

/-- The laws of moving a line. -/
structure Line.ShiftLaws (line : Line) : Prop where
  /-- Nothing but rows is changed, and every row is set to the sum, or to the end that is nearest to
  it. -/
  moved : ∀ delta line', line' = line.shiftRows delta ↔ line.Moved delta line'
  /-- If no row stops at an end, two moves are one. -/
  add : ∀ a b, line.Fits a → (line.shiftRows a).shiftRows b = line.shiftRows (a + b)
  /-- If no row stops at an end, a move can be undone. -/
  neg : ∀ a, line.Fits 0 → line.Fits a → (line.shiftRows a).shiftRows (-a) = line
  /-- To move by nothing is to leave the line alone. -/
  zero : line.Fits 0 → line.shiftRows 0 = line
  /-- The summary stays. -/
  summary : ∀ delta, (line.shiftRows delta).summary = line.summary

/-- Lines of every shape are moved by these laws, where rows are 64-bit words. So a splice may leave
lines alone that are to be moved by nothing, and an outline does not change when lines are moved. -/
theorem Line.shiftRows_laws :
    (∀ line : Line, line.ShiftLaws) ∧
      (∀ (source : Source) (current : List String) (previous : List Line) (change : Change),
        (∀ line ∈ previous, line.Fits 0) →
          source.splice current previous change = source.spliceMoving current previous change) ∧
      ∀ (deltas : Nat → Int) (lines : List Line),
        outline (lines.mapIdx fun i line => line.shiftRows (deltas i)) = outline lines := by
  refine ⟨fun line => ?_, fun source current previous change hwords => ?_, outline_shiftRows⟩
  · exact ⟨fun _ _ => moved_iff.symm, fun _ b h => shiftRows_shiftRows h b,
      fun _ hzero h => shiftRows_neg hzero h, shiftRows_zero,
      fun delta => summary_shiftRows delta line⟩
  · exact source.splice_eq_spliceMoving current hwords change

namespace Line

/-- A line that no row has: its parts are on many rows, the last of them the greatest one. -/
def scattered : Line :=
  ⟨⟨⟨2, 0⟩, ⟨7, 9⟩⟩, false,
    ⟨[], [⟨"odd", none, some "f", none, ⟨⟨3, 4⟩, ⟨2, 1⟩⟩, none⟩],
      [⟨"far", none, none, some "u", .onRow maxRow 0 1, none⟩]⟩,
    .rule ⟨⟨.action .setTextColor, .onRow 4 0 3⟩, some ⟨.less, .onRow 6 1 1⟩,
      .color (some ⟨⟨1, .onRow 8 2 3⟩, ⟨2, .onRow 2 4 5⟩, ⟨3, .onRow 9 6 7⟩,
        some ⟨4, .onRow 3 8 9⟩⟩), some ⟨"# x", .onRow 5 0 3⟩⟩⟩

/-- The line can be moved up by two rows and further, back, or by nothing. -/
theorem shiftRows_laws_scattered :
    scattered.Fits 0 ∧ scattered.Fits (-2) ∧
      (scattered.shiftRows (-2)).shiftRows 5 = scattered.shiftRows 3 ∧
      (scattered.shiftRows (-2)).shiftRows 2 = scattered ∧ scattered.shiftRows 0 = scattered ∧
      (⟨none, .empty, 0⟩ : Source).splice ["Show", "Hide"] [scattered, scattered] ⟨0, 0, 0⟩ =
        (⟨none, .empty, 0⟩ : Source).spliceMoving ["Show", "Hide"] [scattered, scattered]
          ⟨0, 0, 0⟩ := by
  have hwords : scattered.Fits 0 := by decide +kernel
  have hfits : scattered.Fits (-2) := by decide +kernel
  obtain ⟨hlaws, hsplice, -⟩ := Line.shiftRows_laws
  have hline := hlaws scattered
  exact ⟨hwords, hfits, hline.add _ _ hfits, hline.neg _ hwords hfits, hline.zero hwords,
    hsplice _ _ _ _ (by simp [hwords])⟩

-- Its greatest row stops at the end when it is moved down, and so does not come back.
example : ¬ scattered.Fits 1 ∧ (scattered.shiftRows 1).shiftRows (-1) ≠ scattered := by
  decide +kernel

end Line

end ItemFilter
