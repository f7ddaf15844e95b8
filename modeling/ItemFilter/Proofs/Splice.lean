import ItemFilter.Listing
import ItemFilter.Proofs.Change
import ItemFilter.Proofs.Relocation

/-!
# Splicing lines is reading all rows

Rows without line breaks are always read, and what is read is `Source.lines`, which needs no
`Except` (`readAll_eq_ok`). After a change that relates the old rows to the current ones, reading
the changed rows and moving the lines below gives the same lines as reading all rows
(`update_change`), because moving a line is reading its text on another row
(`Line.parse_shiftRows`).

A splice puts together as many lines as there are rows, whatever the previous lines hold
(`update_change_length`); that the lines are right needs in addition that the rows are 64-bit words,
since rows do not move beyond the greatest one.
-/

namespace ItemFilter

open Text

/-- A text fits on one row when it holds no line break. -/
def IsRow (text : String) : Prop := ∀ c ∈ text.toList, isLineBreak c = false

instance (text : String) : Decidable (IsRow text) :=
  decidable_of_iff (text.toList.any isLineBreak = false) (by simp [IsRow])

/-- The rows of a text fit on one row each. -/
theorem isRow_of_mem_splitRows {text row : String} (h : row ∈ splitRows text) : IsRow row := by
  obtain ⟨cs, hcs, rfl⟩ := List.mem_map.1 h
  intro c hc
  rw [String.toList_ofList] at hc
  exact isLineBreak_of_mem_rows hcs c hc

/-- A text that fits on one row has a cursor at its start. -/
theorem Cursor.ofRow_eq_ok {text : String} (h : IsRow text) (row : Nat) :
    ofRow row text = .ok ⟨row, text.toList, 0⟩ := by
  have hbreak : text.toList.any isLineBreak = false := by simpa [IsRow] using h
  rw [ofRow, hbreak]
  rfl

/-- A text that does not fit on one row has none. -/
theorem Cursor.ofRow_eq_error {text : String} (h : ¬IsRow text) (row : Nat) :
    ofRow row text = .error (.lineBreak row) := by
  have hbreak : text.toList.any isLineBreak = true := by simpa [IsRow] using h
  rw [ofRow, hbreak]
  rfl

/-- The old and the new rows of a change share the rows above it and the rows below it. -/
theorem Change.Relates.exists_parts {α : Type} {change : Change} {old new : List α}
    (h : change.Relates old new) :
    ∃ above oldRows newRows below, old = above ++ oldRows ++ below ∧
      new = above ++ newRows ++ below ∧ above.length = change.startRow ∧
      oldRows.length = change.oldExtent + 1 ∧ newRows.length = change.newExtent + 1 := by
  have hold := h.old_lt
  have hnew := h.new_lt
  have parts (rows : List α) (extent : Nat) :
      rows = rows.take change.startRow ++ (rows.drop change.startRow).take (extent + 1) ++
        rows.drop (change.startRow + extent + 1) := by
    rw [List.append_assoc, Nat.add_assoc, ← List.drop_drop, List.take_append_drop,
      List.take_append_drop]
  -- The rows above and below are taken from the old list, and stand in the new one as well.
  refine ⟨old.take change.startRow, (old.drop change.startRow).take (change.oldExtent + 1),
    (new.drop change.startRow).take (change.newExtent + 1),
    old.drop (change.startRow + change.oldExtent + 1), parts old _, ?_, ?_, ?_, ?_⟩
  · rw [h.above, h.below]
    exact parts new _
  · rw [List.length_take]; omega
  · rw [List.length_take, List.length_drop]; omega
  · rw [List.length_take, List.length_drop]; omega

/-- A row that stays among the 64-bit words moves as a number does. -/
theorem shiftRow_eq {delta : Int} {row target : Nat} (h : (row : Int) + delta = target)
    (hle : target ≤ maxRow) : shiftRow delta row = target := by
  rw [shiftRow, h, Int.toNat_natCast, Nat.min_eq_left hle]

namespace Source

variable (source : Source)

/-! ## Reading rows without line breaks -/

/-- The line of a text on a row. -/
def line (text : String) (row : Nat) : Line :=
  .read ⟨row, text.toList, 0⟩ source.file source.vocabulary

/-- The lines of texts on successive rows, from a given one. -/
def linesFrom (row : Nat) (texts : List String) : List Line :=
  (texts.zipIdx row).map fun (text, row) => source.line text row

/-- The lines of all rows. -/
def lines (texts : List String) : List Line := source.linesFrom 0 texts

/-- There is a line for every row. -/
theorem length_linesFrom (row : Nat) (texts : List String) :
    (source.linesFrom row texts).length = texts.length := by
  simp [linesFrom]

/-- The lines of two lists of rows follow each other. -/
theorem linesFrom_append (row : Nat) (texts texts' : List String) :
    source.linesFrom row (texts ++ texts') =
      source.linesFrom row texts ++ source.linesFrom (row + texts.length) texts' := by
  simp [linesFrom, List.zipIdx_append]

/-- A text that fits on one row is read. -/
theorem parse_eq_ok {text : String} (h : IsRow text) (row : Nat) :
    Line.parse text row source.file source.vocabulary = .ok (source.line text row) := by
  rw [Line.parse, Cursor.ofRow_eq_ok h]
  rfl

/-- Texts that fit on one row each are read, from any row on. -/
theorem readRows_eq_ok {texts : List String} (h : ∀ text ∈ texts, IsRow text) (row : Nat) :
    source.readRows (texts.zipIdx row) = .ok (source.linesFrom row texts) := by
  induction texts generalizing row with
  | nil => rfl
  | cons text texts ih =>
    have hfirst := source.parse_eq_ok (h text List.mem_cons_self) row
    have hrest := ih (fun t ht => h t (List.mem_cons_of_mem _ ht)) (row + 1)
    unfold readRows at hrest ⊢
    rw [List.zipIdx_cons, List.mapM_cons, hrest]
    dsimp only
    rw [hfirst]
    rfl

/-- Texts that fit on one row each are read at the same time as they are in order. -/
theorem readTogether_eq_ok {texts : List String} (h : ∀ text ∈ texts, IsRow text) (row : Nat) :
    source.readTogether (texts.zipIdx row) = .ok (source.linesFrom row texts) := by
  have hresults : ((texts.zipIdx row).map fun (text, row) =>
      Line.parse text row source.file source.vocabulary) =
      (source.linesFrom row texts).map .ok := by
    rw [linesFrom, List.map_map]
    refine List.map_congr_left fun x hx => ?_
    exact source.parse_eq_ok (h x.1 (List.fst_mem_of_mem_zipIdx hx)) x.2
  unfold readTogether
  rw [hresults]
  simp [List.filterMap_map, Function.comp_def, refusal?, Except.toOption]

/-- Rows that fit are read, however many there are. -/
theorem readAll_eq_ok {texts : List String} (h : ∀ text ∈ texts, IsRow text) :
    source.readAll texts = .ok (source.lines texts) := by
  unfold readAll
  split_ifs
  · exact source.readTogether_eq_ok h 0
  · exact source.readRows_eq_ok h 0

/-- The rows of a text are read. -/
theorem readAll_splitRows (text : String) :
    source.readAll (splitRows text) = .ok (source.lines (splitRows text)) :=
  source.readAll_eq_ok fun _ h => isRow_of_mem_splitRows h

/-! ## Moving lines -/

/-- A line that is moved is the line of the same text further down or up. -/
theorem shiftRows_line {delta : Int} {row target : Nat} (h : (row : Int) + delta = target)
    (hle : target ≤ maxRow) (text : String) :
    (source.line text row).shiftRows delta = source.line text target := by
  have hread := Line.shiftRows_read delta ⟨row, text.toList, 0⟩ source.file source.vocabulary
  rw [shiftRow_eq h hle] at hread
  exact hread

/-- Lines that are moved are the lines of the same texts further down or up. -/
theorem map_shiftRows_linesFrom {delta : Int} {row target : Nat} {texts : List String}
    (h : (row : Int) + delta = target) (hle : target + texts.length ≤ maxRow + 1) :
    (source.linesFrom row texts).map (Line.shiftRows delta) = source.linesFrom target texts := by
  induction texts generalizing row target with
  | nil => rfl
  | cons text texts ih =>
    rw [List.length_cons] at hle
    -- The first line moves by the distance, and so do the others, one row further down.
    have hline := source.shiftRows_line h (by omega) text
    have hrest := @ih (row + 1) (target + 1) (by omega) (by omega)
    unfold linesFrom at hrest ⊢
    rw [List.zipIdx_cons, List.zipIdx_cons, List.map_cons, List.map_cons, List.map_cons, hrest]
    exact congrArg (· :: _) hline

/-! ## Splices -/

/-- A splice that brings as many lines as there are rows is the result of an update. -/
theorem update_eq_ok {current : List String} {previous lines : List Line} {change : Change}
    (h : source.splice current previous change = .ok lines)
    (hlen : lines.length = current.length) :
    source.update current (some previous) (some change) = .ok lines := by
  unfold update
  dsimp only
  rw [h]
  exact if_pos hlen

section Splices

variable {old current : List String} {change : Change}

/-- What a splice puts together: the lines above are kept, the changed rows are read, and the lines
below are moved if they have to. -/
theorem splice_eq_ok {previous : List Line} (hlen : previous.length = old.length)
    (hcurrent : ∀ text ∈ current, IsRow text) (h : change.Relates old current) :
    source.splice current previous change =
      .ok (previous.take change.startRow ++
        source.linesFrom change.startRow
          ((current.drop change.startRow).take (change.newExtent + 1)) ++
        if change.rowDelta = 0 then previous.drop (change.startRow + change.oldExtent + 1)
        else (previous.drop (change.startRow + change.oldExtent + 1)).map
          (Line.shiftRows change.rowDelta)) := by
  obtain ⟨above, oldRows, newRows, below, rfl, rfl, habove, hold, hnew⟩ := h.exists_parts
  -- The numbered rows of the window are the new rows, numbered from the first changed row.
  have hslice : ((above ++ newRows ++ below).zipIdx.drop change.startRow).take
      (change.newExtent + 1) = newRows.zipIdx change.startRow := by
    rw [List.append_assoc, List.zipIdx_append, List.zipIdx_append,
      List.drop_left' (by simpa using habove), List.take_left' (by simpa using hnew), habove,
      Nat.zero_add]
  have hrows : ((above ++ newRows ++ below).drop change.startRow).take (change.newExtent + 1) =
      newRows := by
    rw [List.append_assoc, List.drop_left' habove, List.take_left' hnew]
  have hfresh : source.readRows (newRows.zipIdx change.startRow) = _ :=
    source.readRows_eq_ok (fun text htext => hcurrent text (by simp [htext])) change.startRow
  -- Neither list is too short for the change.
  have hbounds : ¬(change.startRow + change.oldExtent ≥ previous.length ∨
      change.startRow + change.newExtent ≥ (above ++ newRows ++ below).length) := by
    simp only [List.length_append] at hlen ⊢
    omega
  unfold splice
  dsimp only
  rw [if_neg hbounds, hslice, hfresh, hrows]
  rfl

/-- A splice brings as many lines as there are rows. -/
theorem update_change_length {previous : List Line} (hlen : previous.length = old.length)
    (hcurrent : ∀ text ∈ current, IsRow text) (h : change.Relates old current) :
    ∃ lines, source.update current (some previous) (some change) = .ok lines ∧
      lines.length = current.length := by
  have hsplice := source.splice_eq_ok hlen hcurrent h
  generalize hlines : previous.take change.startRow ++ _ ++ _ = lines at hsplice
  have hcount : lines.length = current.length := by
    have hold := h.old_lt
    have hnew := h.new_lt
    have hrows := h.length_eq
    rw [← hlines, List.length_append, List.length_append, length_linesFrom, List.length_take,
      List.length_take, List.length_drop]
    split_ifs
    · rw [List.length_drop]; omega
    · rw [List.length_map, List.length_drop]; omega
  exact ⟨lines, source.update_eq_ok hsplice hcount, hcount⟩

/-- A splice of the lines of the old rows gives the lines of the current rows. -/
theorem update_change (hcurrent : ∀ text ∈ current, IsRow text) (h : change.Relates old current)
    (hfit : current.length ≤ maxRow + 1) :
    source.update current (some (source.lines old)) (some change) =
      .ok (source.lines current) := by
  have hsplice := source.splice_eq_ok (source.length_linesFrom 0 old) hcurrent h
  refine source.update_eq_ok (hsplice.trans (congrArg _ ?_)) (source.length_linesFrom 0 current)
  obtain ⟨above, oldRows, newRows, below, rfl, rfl, habove, hold, hnew⟩ := h.exists_parts
  simp only [List.length_append] at hfit
  unfold lines
  -- The lines of both lists of rows, in the three parts.
  rw [source.linesFrom_append 0 (above ++ oldRows), source.linesFrom_append 0 above oldRows,
    source.linesFrom_append 0 (above ++ newRows), source.linesFrom_append 0 above newRows]
  have htake (rest : List Line) :
      (source.linesFrom 0 above ++ source.linesFrom (0 + above.length) oldRows ++ rest).take
        change.startRow = source.linesFrom 0 above := by
    rw [List.append_assoc, List.take_left' (by rw [length_linesFrom, habove])]
  have hdrop (rest : List Line) :
      (source.linesFrom 0 above ++ source.linesFrom (0 + above.length) oldRows ++ rest).drop
        (change.startRow + change.oldExtent + 1) = rest := by
    rw [List.drop_left' (by rw [List.length_append, length_linesFrom, length_linesFrom]; omega)]
  have hrows : ((above ++ newRows ++ below).drop change.startRow).take (change.newExtent + 1) =
      newRows := by
    rw [List.append_assoc, List.drop_left' habove, List.take_left' hnew]
  rw [htake, hdrop, hrows, ← habove, Nat.zero_add, Nat.zero_add, Nat.zero_add]
  congr 1
  -- The lines below keep their rows or are moved to them.
  have hdelta : ((above ++ oldRows).length : Int) + change.rowDelta =
      ((above ++ newRows).length : Nat) := by
    rw [List.length_append, List.length_append, hold, hnew, Change.rowDelta]
    omega
  split_ifs with hzero
  · rw [hzero] at hdelta
    have hsame : (above ++ oldRows).length = (above ++ newRows).length := by omega
    rw [hsame]
  · exact source.map_shiftRows_linesFrom hdelta (by rw [List.length_append]; exact hfit)

end Splices

/-- Without previous lines all rows are read. -/
theorem update_none {current : List String} (hcurrent : ∀ text ∈ current, IsRow text) :
    source.update current none none = .ok (source.lines current) := by
  unfold update
  dsimp only
  rw [source.readAll_eq_ok hcurrent]
  exact if_pos (source.length_linesFrom 0 current)

/-- Bringing the lines of old rows up to date by a change that relates them to the current rows
gives exactly the lines that reading all current rows gives. Rows are 64-bit words. -/
theorem update_incremental (old current : List String) (change : Change)
    (hold : ∀ text ∈ old, IsRow text) (hcurrent : ∀ text ∈ current, IsRow text)
    (h : change.Relates old current) (hfit : current.length ≤ maxRow + 1) :
    ∃ previous lines, source.readAll old = .ok previous ∧ source.readAll current = .ok lines ∧
      source.update current (some previous) (some change) = .ok lines :=
  ⟨source.lines old, source.lines current, source.readAll_eq_ok hold,
    source.readAll_eq_ok hcurrent, source.update_change hcurrent h hfit⟩

/-- A blank row above a header moves the rule below it. -/
theorem update_incremental_blank :
    Change.Relates ⟨0, 0, 1⟩ ["Show", "Quality >= 20"] ["", "Show", "Quality >= 20"] ∧
      ∃ previous lines,
        (⟨none, .builtin, 0⟩ : Source).readAll ["Show", "Quality >= 20"] = .ok previous ∧
        (⟨none, .builtin, 0⟩ : Source).readAll ["", "Show", "Quality >= 20"] = .ok lines ∧
        (⟨none, .builtin, 0⟩ : Source).update ["", "Show", "Quality >= 20"] (some previous)
          (some ⟨0, 0, 1⟩) = .ok lines := by
  have h : Change.Relates ⟨0, 0, 1⟩ ["Show", "Quality >= 20"] ["", "Show", "Quality >= 20"] :=
    ⟨by decide, by decide, by decide, by decide⟩
  exact ⟨h, update_incremental ⟨none, .builtin, 0⟩ _ _ _ (by decide) (by decide) h (by decide)⟩

end Source

namespace Line

/-- Reading a text on one row and moving the line is reading the text on the row to which it is
moved, in all that the line holds. So nothing in a line depends on its row but the rows of its
ranges, and moving the line puts every one of them on the new row. Rows are 64-bit words. -/
theorem parse_shiftRows {text : String} (htext : IsRow text) {row target : Nat} {delta : Int}
    (h : (row : Int) + delta = target) (htarget : target < 2 ^ 64) (file : Option String)
    (vocabulary : Vocabulary) :
    ∃ line, parse text row file vocabulary = .ok line ∧
      parse text target file vocabulary = .ok (line.shiftRows delta) ∧
      line.shiftRows delta = line.mapRanges (.atRow target) := by
  let source : Source := ⟨file, vocabulary, 0⟩
  have hle : target ≤ maxRow := by
    rw [maxRow]
    omega
  have hmoved := source.shiftRows_line h hle text
  have hput : source.line text target = (source.line text row).mapRanges (.atRow target) :=
    read_atRow target ⟨row, text.toList, 0⟩ file vocabulary
  refine ⟨source.line text row, source.parse_eq_ok htext row, ?_, hmoved.trans hput⟩
  rw [hmoved]
  exact source.parse_eq_ok htext target

/-- A rule with an unknown name and text behind an unfinished one is moved up as far as a signed
64-bit word goes. -/
theorem parse_shiftRows_names :
    IsRow "Class = Boots Bööts \"Glov" ∧ ∃ line,
      parse "Class = Boots Bööts \"Glov" (2 ^ 63 + 4) none .builtin = .ok line ∧
      parse "Class = Boots Bööts \"Glov" 4 none .builtin = .ok (line.shiftRows (-2 ^ 63)) ∧
      line.shiftRows (-2 ^ 63) = line.mapRanges (.atRow 4) := by
  have htext : IsRow "Class = Boots Bööts \"Glov" := by decide
  exact ⟨htext, parse_shiftRows htext (by norm_num) (by norm_num) none .builtin⟩

end Line

end ItemFilter
