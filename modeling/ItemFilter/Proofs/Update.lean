import ItemFilter.Proofs.Splice

/-!
# What an update answers

Bringing lines up to date is refused in three ways, and `Source.update_answers` says exactly when.
With previous lines and a change, the change is held against the numbers of lines and rows first;
then the changed rows are read in order, and the first one that holds a line break is named; and
last the lines that were put together are counted. Otherwise all rows are read, and nothing but a
line break can be in the way. The row that is named is then the first one only as long as the rows
are read in order. Of many rows, which are read at the same time, any row with a line break may be
the one, as `Source.update_crowdedRows` shows.

Rows are read in order up to the first one that holds a line break (`Source.readRows_cases`), and at
the same time up to some of them (`Source.readTogether_cases`). A splice is nothing but the bounds,
a reading in order, and the lines put together (`Source.splice_cases`).
-/

namespace ItemFilter

open Text

/-- The rows from `start` on and before `stop` whose texts hold a line break. -/
def brokenRows (texts : List String) (start stop : Nat) : Set Nat :=
  {row | start ≤ row ∧ row < stop ∧ ∃ text ∈ texts[row]?, ¬IsRow text}

/-- A change names rows that lists of so many old and new rows have. -/
def Change.Fits (change : Change) (oldRows newRows : Nat) : Prop :=
  change.startRow + change.oldExtent < oldRows ∧ change.startRow + change.newExtent < newRows

/-- A change that does not fit names too many old rows or too many new ones. -/
theorem Change.not_fits_iff {change : Change} {oldRows newRows : Nat} :
    ¬change.Fits oldRows newRows ↔
      oldRows ≤ change.startRow + change.oldExtent ∨
        newRows ≤ change.startRow + change.newExtent := by
  rw [Fits]
  omega

/-- A change that fits names neither too many old rows nor too many new ones. -/
theorem Change.Fits.not_exceeds {change : Change} {oldRows newRows : Nat}
    (h : change.Fits oldRows newRows) :
    ¬(oldRows ≤ change.startRow + change.oldExtent ∨
      newRows ≤ change.startRow + change.newExtent) :=
  mt Change.not_fits_iff.2 (not_not_intro h)

/-- The numbered rows of a stretch are the rows of the stretch, numbered from its start. -/
theorem zipIdx_stretch (texts : List String) (start count : Nat) :
    (texts.zipIdx.drop start).take count = ((texts.drop start).take count).zipIdx start := by
  apply List.ext_getElem?
  intro i
  rw [List.getElem?_zipIdx, List.getElem?_take, List.getElem?_take, List.getElem?_drop,
    List.getElem?_drop, List.getElem?_zipIdx, Nat.zero_add]
  split_ifs <;> rfl

/-- A row of a stretch is broken where the stretch as a list is. -/
theorem add_mem_brokenRows_iff {texts : List String} {start count i : Nat} :
    start + i ∈ brokenRows texts start (start + count) ↔
      ∃ text ∈ ((texts.drop start).take count)[i]?, ¬IsRow text := by
  rw [brokenRows, Set.mem_ofPred_eq, List.getElem?_take, List.getElem?_drop]
  split_ifs with hlt
  · simp [hlt]
  · simp [hlt]

/-- A stretch is unbroken exactly when all its texts fit on one row each. -/
theorem brokenRows_eq_empty_iff {texts : List String} {start count : Nat} :
    brokenRows texts start (start + count) = ∅ ↔
      ∀ text ∈ (texts.drop start).take count, IsRow text := by
  rw [Set.eq_empty_iff_forall_notMem]
  constructor
  · intro h text htext
    obtain ⟨i, hi⟩ := List.mem_iff_getElem?.1 htext
    by_contra hbroken
    exact h (start + i) (add_mem_brokenRows_iff.2 ⟨text, hi, hbroken⟩)
  · rintro h row hrow
    obtain ⟨i, rfl⟩ := Nat.exists_eq_add_of_le hrow.1
    obtain ⟨text, htext, hbroken⟩ := add_mem_brokenRows_iff.1 hrow
    exact hbroken (h text (List.mem_of_getElem? htext))

namespace Source

variable (source : Source)

/-! ## Reading rows -/

/-- A text that does not fit on one row is refused. -/
theorem parse_eq_error {text : String} (h : ¬IsRow text) (row : Nat) :
    Line.parse text row source.file source.vocabulary = .error (.lineBreak row) := by
  rw [Line.parse, Cursor.ofRow_eq_error h]
  rfl

/-- Rows are all read, or the first of them that holds a line break is refused. -/
theorem readRows_cases (texts : List String) (row : Nat) :
    ((∀ text ∈ texts, IsRow text) ∧
      source.readRows (texts.zipIdx row) = .ok (source.linesFrom row texts)) ∨
    ∃ i, IsLeast {i | ∃ text ∈ texts[i]?, ¬IsRow text} i ∧
      source.readRows (texts.zipIdx row) = .error (.lineBreak (row + i)) := by
  induction texts generalizing row with
  | nil => exact .inl ⟨nofun, rfl⟩
  | cons text texts ih =>
    have hread : source.readRows ((text :: texts).zipIdx row) =
        (Line.parse text row source.file source.vocabulary >>= fun line =>
          source.readRows (texts.zipIdx (row + 1)) >>= fun lines => pure (line :: lines)) := by
      rw [readRows, List.zipIdx_cons, List.mapM_cons]
      rfl
    by_cases htext : IsRow text
    · rw [source.parse_eq_ok htext] at hread
      rcases ih (row + 1) with ⟨htexts, hrest⟩ | ⟨i, ⟨hi, hleast⟩, hrest⟩
      · rw [hrest] at hread
        exact .inl ⟨List.forall_mem_cons.2 ⟨htext, htexts⟩, hread⟩
      · -- The first row is not the one, so it is the first one among the others.
        rw [hrest] at hread
        refine .inr ⟨i + 1, ⟨hi, ?_⟩, ?_⟩
        · rintro (_ | j) ⟨broken, hbroken, hnot⟩
          · obtain rfl : text = broken := by simpa using hbroken
            exact absurd htext hnot
          · exact Nat.succ_le_succ (hleast ⟨broken, hbroken, hnot⟩)
        · rw [hread, Nat.add_right_comm, Nat.add_assoc]
          rfl
    · rw [source.parse_eq_error htext] at hread
      exact .inr ⟨0, ⟨⟨text, rfl, htext⟩, fun _ _ => Nat.zero_le _⟩, hread⟩

/-- A stretch of rows is read, or the first of its rows that holds a line break is refused. -/
theorem readRows_stretch_cases (texts : List String) (start count : Nat) :
    (brokenRows texts start (start + count) = ∅ ∧
      source.readRows ((texts.zipIdx.drop start).take count) =
        .ok (source.linesFrom start ((texts.drop start).take count))) ∨
    ∃ row, IsLeast (brokenRows texts start (start + count)) row ∧
      source.readRows ((texts.zipIdx.drop start).take count) = .error (.lineBreak row) := by
  rw [zipIdx_stretch]
  rcases source.readRows_cases ((texts.drop start).take count) start with
    ⟨hrows, hread⟩ | ⟨i, ⟨hi, hleast⟩, hread⟩
  · exact .inl ⟨brokenRows_eq_empty_iff.2 hrows, hread⟩
  · refine .inr ⟨start + i, ⟨add_mem_brokenRows_iff.2 hi, ?_⟩, hread⟩
    intro row hrow
    obtain ⟨j, rfl⟩ := Nat.exists_eq_add_of_le hrow.1
    exact Nat.add_le_add_left (hleast (add_mem_brokenRows_iff.1 hrow)) start

/-- The numbers of those rows that hold a line break, in order. -/
def refused (numbered : List (String × Nat)) : List Nat :=
  (numbered.filter fun (text, _) => ¬IsRow text).map Prod.snd

/-- The refused rows are the broken ones. -/
theorem mem_refused_iff {texts : List String} {row : Nat} :
    row ∈ refused texts.zipIdx ↔ row ∈ brokenRows texts 0 texts.length := by
  have hmem : row ∈ refused texts.zipIdx ↔ ∃ text, texts[row]? = some text ∧ ¬IsRow text := by
    simp [refused, List.mem_zipIdx_iff_getElem?]
  rw [hmem, brokenRows, Set.mem_ofPred_eq]
  constructor
  · rintro ⟨text, htext, hbroken⟩
    exact ⟨Nat.zero_le row, (List.getElem?_eq_some_iff.1 htext).1, text, htext, hbroken⟩
  · rintro ⟨-, -, text, htext, hbroken⟩
    exact ⟨text, htext, hbroken⟩

/-- A row is refused if it holds a line break. -/
theorem refusal?_parse (text : String) (row : Nat) :
    refusal? (Line.parse text row source.file source.vocabulary) =
      if IsRow text then none else some (.lineBreak row) := by
  split_ifs with htext
  · rw [source.parse_eq_ok htext]
    rfl
  · rw [source.parse_eq_error htext]
    rfl

/-- The refusals of rows that are all read name the refused ones. -/
theorem filterMap_refusal? (numbered : List (String × Nat)) :
    (numbered.map fun x => Line.parse x.1 x.2 source.file source.vocabulary).filterMap refusal? =
      (refused numbered).map Misuse.lineBreak := by
  induction numbered with
  | nil => rfl
  | cons first rest ih =>
    obtain ⟨text, row⟩ := first
    rw [List.map_cons]
    have hfirst := source.refusal?_parse text row
    by_cases htext : IsRow text
    · rw [if_pos htext] at hfirst
      rw [List.filterMap_cons_none hfirst, ih]
      simp [refused, htext]
    · rw [if_neg htext] at hfirst
      rw [List.filterMap_cons_some hfirst, ih]
      simp [refused, htext]

/-- Reading at the same time answers the refusal of the row whose turn it is. -/
theorem readTogether_of_refused {numbered : List (String × Nat)} {row : Nat}
    (h : (refused numbered)[source.schedule % (refused numbered).length]? = some row) :
    source.readTogether numbered = .error (.lineBreak row) := by
  unfold readTogether
  dsimp only
  rw [source.filterMap_refusal? numbered, List.length_map, List.getElem?_map, h]
  rfl

/-- Rows that are read at the same time are all read, or one that holds a line break is refused. -/
theorem readTogether_cases (texts : List String) :
    (brokenRows texts 0 texts.length = ∅ ∧
      source.readTogether texts.zipIdx = .ok (source.lines texts)) ∨
    ∃ row ∈ brokenRows texts 0 texts.length,
      source.readTogether texts.zipIdx = .error (.lineBreak row) := by
  by_cases hrefused : refused texts.zipIdx = []
  · have hempty : brokenRows texts 0 texts.length = ∅ := by
      rw [Set.eq_empty_iff_forall_notMem]
      intro row hrow
      simpa [hrefused] using mem_refused_iff.2 hrow
    have hrows : ∀ text ∈ texts, IsRow text := by
      have hstretch := brokenRows_eq_empty_iff.1 ((Nat.zero_add texts.length).symm ▸ hempty)
      rwa [List.drop_zero, List.take_length] at hstretch
    exact .inl ⟨hempty, source.readTogether_eq_ok hrows 0⟩
  · have hlt : source.schedule % (refused texts.zipIdx).length < (refused texts.zipIdx).length :=
      Nat.mod_lt _ (List.length_pos_iff.2 hrefused)
    have hturn := List.getElem?_eq_getElem hlt
    exact .inr ⟨_, mem_refused_iff.1 (List.mem_of_getElem? hturn),
      source.readTogether_of_refused hturn⟩

/-- All rows are read, or one that holds a line break is refused, which is the first one unless the
rows are read at the same time. -/
theorem readAll_cases (texts : List String) :
    (brokenRows texts 0 texts.length = ∅ ∧ source.readAll texts = .ok (source.lines texts)) ∨
    ∃ row ∈ brokenRows texts 0 texts.length,
      (texts.length < togetherFrom → IsLeast (brokenRows texts 0 texts.length) row) ∧
      source.readAll texts = .error (.lineBreak row) := by
  unfold readAll
  split_ifs with hmany
  · rcases source.readTogether_cases texts with ⟨hintact, hread⟩ | ⟨row, hrow, hread⟩
    · exact .inl ⟨hintact, hread⟩
    · exact .inr ⟨row, hrow, fun hfew => absurd hmany (Nat.not_le.2 hfew), hread⟩
  · have hcases := source.readRows_stretch_cases texts 0 texts.length
    rw [Nat.zero_add, List.drop_zero, List.drop_zero, List.take_length,
      List.take_of_length_le (by rw [List.length_zipIdx])] at hcases
    rcases hcases with ⟨hintact, hread⟩ | ⟨row, hrow, hread⟩
    · exact .inl ⟨hintact, hread⟩
    · exact .inr ⟨row, hrow.1, fun _ => hrow, hread⟩

/-! ## Putting lines together -/

/-- The lines that a splice puts together: those above the change, those of the changed rows, and
those below, moved if they have to be. -/
def spliced (current : List String) (previous : List Line) (change : Change) : List Line :=
  previous.take change.startRow ++
    source.linesFrom change.startRow
      ((current.drop change.startRow).take (change.newExtent + 1)) ++
    if change.rowDelta = 0 then previous.drop (change.startRow + change.oldExtent + 1)
    else (previous.drop (change.startRow + change.oldExtent + 1)).map
      (Line.shiftRows change.rowDelta)

variable {current : List String} {previous : List Line} {change : Change}

/-- A splice of a change that fits has as many lines as before, without those that were replaced and
with those that replace them. -/
theorem length_spliced (h : change.Fits previous.length current.length) :
    (source.spliced current previous change).length =
      previous.length - change.oldExtent + change.newExtent := by
  obtain ⟨hold, hnew⟩ := h
  have hbelow : (if change.rowDelta = 0 then
        previous.drop (change.startRow + change.oldExtent + 1)
      else (previous.drop (change.startRow + change.oldExtent + 1)).map
        (Line.shiftRows change.rowDelta)).length =
      previous.length - (change.startRow + change.oldExtent + 1) := by
    split_ifs
    · rw [List.length_drop]
    · rw [List.length_map, List.length_drop]
  rw [spliced, List.length_append, List.length_append, hbelow, length_linesFrom,
    List.length_take, List.length_take, List.length_drop]
  omega

/-- A splice is refused because of the change, or because of the first changed row that holds a line
break, or else puts the lines together. -/
theorem splice_cases (current : List String) (previous : List Line) (change : Change) :
    (¬change.Fits previous.length current.length ∧
      source.splice current previous change = .error (.changeOutOfBounds change.startRow
        change.oldExtent change.newExtent previous.length current.length)) ∨
    (change.Fits previous.length current.length ∧
      ∃ row, IsLeast (brokenRows current change.startRow
          (change.startRow + (change.newExtent + 1))) row ∧
        source.splice current previous change = .error (.lineBreak row)) ∨
    (change.Fits previous.length current.length ∧
      brokenRows current change.startRow (change.startRow + (change.newExtent + 1)) = ∅ ∧
      source.splice current previous change = .ok (source.spliced current previous change)) := by
  unfold splice
  dsimp only
  by_cases hfits : change.Fits previous.length current.length
  · rw [if_neg hfits.not_exceeds]
    rcases source.readRows_stretch_cases current change.startRow (change.newExtent + 1) with
      ⟨hintact, hread⟩ | ⟨row, hrow, hread⟩
    · rw [hread]
      exact .inr (.inr ⟨hfits, hintact, rfl⟩)
    · rw [hread]
      exact .inr (.inl ⟨hfits, row, hrow, rfl⟩)
  · rw [if_pos (Change.not_fits_iff.1 hfits)]
    exact .inl ⟨hfits, rfl⟩

/-- The lines that are put together are counted last. -/
theorem update_of_splice {lines : List Line}
    (h : source.splice current previous change = .ok lines) :
    source.update current (some previous) (some change) =
      if lines.length = current.length then .ok lines
      else .error (.lengthMismatch current.length lines.length) := by
  unfold update
  dsimp only
  rw [h]
  rfl

/-- A splice that is refused refuses the update. -/
theorem update_of_refused {misuse : Misuse}
    (h : source.splice current previous change = .error misuse) :
    source.update current (some previous) (some change) = .error misuse := by
  unfold update
  dsimp only
  rw [h]
  rfl

/-- Without previous lines or without a change, all rows are read. -/
theorem update_eq_readAll {previous : Option (List Line)} {change : Option Change}
    (h : previous = none ∨ change = none) :
    source.update current previous change = source.readAll current := by
  have hupdate : source.update current previous change =
      (source.readAll current >>= fun lines =>
        if lines.length = current.length then pure lines
        else .error (.lengthMismatch current.length lines.length)) := by
    rcases h with rfl | rfl
    · rfl
    · cases previous <;> rfl
  rcases source.readAll_cases current with ⟨-, hread⟩ | ⟨row, -, -, hread⟩
  · rw [hupdate, hread]
    exact if_pos (source.length_linesFrom 0 current)
  · rw [hupdate, hread]
    rfl

/-! ## The answers -/

/-- An update by a change has one of four answers, each under a condition that excludes the
others. -/
theorem update_change_cases (current : List String) (previous : List Line) (change : Change) :
    (¬change.Fits previous.length current.length ∧
      source.update current (some previous) (some change) =
        .error (.changeOutOfBounds change.startRow change.oldExtent change.newExtent
          previous.length current.length)) ∨
    (change.Fits previous.length current.length ∧
      ∃ row, IsLeast (brokenRows current change.reparsed.1 change.reparsed.2) row ∧
        source.update current (some previous) (some change) = .error (.lineBreak row)) ∨
    (change.Fits previous.length current.length ∧
      brokenRows current change.reparsed.1 change.reparsed.2 = ∅ ∧
      current.length ≠ previous.length - change.oldExtent + change.newExtent ∧
      source.update current (some previous) (some change) =
        .error (.lengthMismatch current.length
          (previous.length - change.oldExtent + change.newExtent))) ∨
    (change.Fits previous.length current.length ∧
      brokenRows current change.reparsed.1 change.reparsed.2 = ∅ ∧
      current.length = previous.length - change.oldExtent + change.newExtent ∧
      source.update current (some previous) (some change) =
        .ok (source.spliced current previous change)) := by
  rcases source.splice_cases current previous change with
    ⟨hfits, hsplice⟩ | ⟨hfits, row, hrow, hsplice⟩ | ⟨hfits, hintact, hsplice⟩
  · exact .inl ⟨hfits, source.update_of_refused hsplice⟩
  · exact .inr (.inl ⟨hfits, row, hrow, source.update_of_refused hsplice⟩)
  · have hupdate := source.update_of_splice hsplice
    rw [source.length_spliced hfits] at hupdate
    by_cases hlength : current.length = previous.length - change.oldExtent + change.newExtent
    · rw [if_pos hlength.symm] at hupdate
      exact .inr (.inr (.inr ⟨hfits, hintact, hlength, hupdate⟩))
    · rw [if_neg (Ne.symm hlength)] at hupdate
      exact .inr (.inr (.inl ⟨hfits, hintact, hlength, hupdate⟩))

end Source

end ItemFilter
