import ItemFilter.Proofs.Update
import ItemFilter.Proofs.WellFormed

/-!
# Lines that an update keeps

An update by a change keeps the previous lines above and below it, whatever vocabulary they were
read with and whether they were read at all. If the previous lines are well-formed, so are the
lines that come out (`Source.update_wellFormed`).

`Line.ranges` lists every range that a line holds, and changing ranges changes those and nothing
else: lines whose ranges are changed in the same way are changed in the same way
(`Line.mapRanges_congr`). All ranges of a well placed line are on its row. Moving the line therefore
puts them on one row, the columns stay (`Line.WellPlaced.shiftRows_eq`), and the line is well placed
there (`Line.WellPlaced.mapRanges_atRow`).
-/

namespace ItemFilter

/-! ## All ranges of a line -/

/-- Every range of a line: its own, those of its diagnostics and those of its tokens. -/
def Line.ranges (line : Line) : List Range :=
  line.range :: (line.messages.ranges ++ line.kind.ranges)

section Ranges

variable (f : Range → Range)

/-- The ranges of diagnostics are changed one by one. -/
theorem Messages.ranges_mapRanges (m : Messages) :
    (m.mapRanges f).ranges = m.ranges.map f := by
  simp [mapRanges, ranges, toList, Diagnostic.mapRange, Function.comp_def]

/-- The ranges of an argument are changed one by one. -/
theorem Argument.ranges_mapRanges (a : Argument) : (a.mapRanges f).ranges = a.ranges.map f := by
  cases a with
  | names tokens => simp [mapRanges, ranges, Token.mapRange]
  | color color =>
    obtain _ | ⟨red, green, blue, _ | alpha⟩ := color <;> rfl
  | sound sound =>
    obtain _ | ⟨id, _ | volume⟩ := sound <;> rfl
  | flag => rfl
  | number token => cases token <;> rfl
  | rarity token => cases token <;> rfl
  | socketGroup token => cases token <;> rfl
  | boolean token => cases token <;> rfl
  | fontSize token => cases token <;> rfl
  | soundFile token => cases token <;> rfl

/-- The ranges of the tokens of a line are changed one by one. -/
theorem LineKind.ranges_mapRanges (kind : LineKind) :
    (kind.mapRanges f).ranges = kind.ranges.map f := by
  cases kind with
  | empty => rfl
  | comment text => rfl
  | block header =>
    obtain ⟨keyword, _ | comment⟩ := header <;> rfl
  | rule r =>
    obtain ⟨name, _ | operator, argument, _ | comment⟩ := r <;>
      simp [mapRanges, ranges, Argument.ranges_mapRanges, Token.mapRange]
  | unknown word => cases word <;> rfl

end Ranges

section Congruence

variable {f g : Range → Range}

/-- Diagnostics whose ranges are changed in the same way are changed in the same way. -/
theorem Messages.mapRanges_congr {m : Messages} (h : ∀ r ∈ m.ranges, f r = g r) :
    m.mapRanges f = m.mapRanges g := by
  have hlist {ds : List Diagnostic} (hds : ∀ d ∈ ds, f d.range = g d.range) :
      ds.map (·.mapRange f) = ds.map (·.mapRange g) := by
    refine List.map_congr_left fun d hd => ?_
    rw [Diagnostic.mapRange, Diagnostic.mapRange, hds d hd]
  obtain ⟨errors, warnings, info⟩ := m
  simp only [ranges, toList, List.map_append, List.map_map, List.forall_mem_append,
    List.forall_mem_map] at h
  obtain ⟨⟨herrors, hwarnings⟩, hinfo⟩ := h
  rw [mapRanges, mapRanges, hlist herrors, hlist hwarnings, hlist hinfo]

/-- A token whose range is changed in the same way is changed in the same way. -/
theorem Token.mapRange_congr {α : Type} {token : Option (Token α)}
    (h : ∀ r ∈ (token.map Token.range).toList, f r = g r) :
    token.map (·.mapRange f) = token.map (·.mapRange g) := by
  cases token with
  | none => rfl
  | some t => rw [Option.map_some, Option.map_some, mapRange, mapRange, h t.range (by simp)]

/-- An argument whose ranges are changed in the same way is changed in the same way. -/
theorem Argument.mapRanges_congr {a : Argument} (h : ∀ r ∈ a.ranges, f r = g r) :
    a.mapRanges f = a.mapRanges g := by
  cases a with
  | number token => exact congrArg number (Token.mapRange_congr h)
  | rarity token => exact congrArg rarity (Token.mapRange_congr h)
  | socketGroup token => exact congrArg socketGroup (Token.mapRange_congr h)
  | boolean token => exact congrArg boolean (Token.mapRange_congr h)
  | fontSize token => exact congrArg fontSize (Token.mapRange_congr h)
  | soundFile token => exact congrArg soundFile (Token.mapRange_congr h)
  | flag => rfl
  | names tokens =>
    refine congrArg names (List.map_congr_left fun t ht => ?_)
    rw [Token.mapRange, Token.mapRange, h t.range (List.mem_map_of_mem ht)]
  | color color =>
    cases color with
    | none => rfl
    | some c =>
      simp only [ranges, List.cons_append, List.nil_append, List.forall_mem_cons] at h
      obtain ⟨hred, hgreen, hblue, halpha⟩ := h
      simp only [mapRanges, Option.map_some, Color.mapRanges, Token.mapRange_congr halpha]
      simp only [Token.mapRange, hred, hgreen, hblue]
  | sound sound =>
    cases sound with
    | none => rfl
    | some s =>
      simp only [ranges, List.forall_mem_cons] at h
      obtain ⟨hid, hvolume⟩ := h
      simp only [mapRanges, Option.map_some, AlertSound.mapRanges, Token.mapRange_congr hvolume]
      simp only [Token.mapRange, hid]

/-- A line whose tokens' ranges are changed in the same way is changed in the same way. -/
theorem LineKind.mapRanges_congr {kind : LineKind} (h : ∀ r ∈ kind.ranges, f r = g r) :
    kind.mapRanges f = kind.mapRanges g := by
  cases kind with
  | empty => rfl
  | comment text =>
    rw [mapRanges, mapRanges, Token.mapRange, Token.mapRange, h text.range (by simp [ranges])]
  | block header =>
    simp only [ranges, List.forall_mem_cons] at h
    obtain ⟨hkeyword, hcomment⟩ := h
    simp only [mapRanges, Token.mapRange_congr hcomment]
    simp only [Token.mapRange, hkeyword]
  | rule r =>
    simp only [ranges, List.forall_mem_append, List.forall_mem_cons] at h
    obtain ⟨⟨hoperator, hcomment⟩, hname, hargument⟩ := h
    simp only [mapRanges, Token.mapRange_congr hoperator, Token.mapRange_congr hcomment,
      Argument.mapRanges_congr hargument]
    simp only [Token.mapRange, hname]
  | unknown word => exact congrArg unknown (Token.mapRange_congr h)

/-- A line whose ranges are changed in the same way is changed in the same way. -/
theorem Line.mapRanges_congr {line : Line} (h : ∀ r ∈ line.ranges, f r = g r) :
    line.mapRanges f = line.mapRanges g := by
  simp only [ranges, List.forall_mem_cons, List.forall_mem_append] at h
  obtain ⟨hrange, hmessages, hkind⟩ := h
  rw [mapRanges, mapRanges, hrange, Messages.mapRanges_congr hmessages,
    LineKind.mapRanges_congr hkind]

/-- Keeping all ranges changes nothing in an argument. -/
theorem Argument.mapRanges_id (a : Argument) : a.mapRanges id = a := by
  cases a <;> simp [mapRanges, Token.mapRange, Color.mapRanges, AlertSound.mapRanges]

/-- Keeping all ranges changes nothing in a line. -/
theorem Line.mapRanges_id (line : Line) : line.mapRanges id = line := by
  have hmessages : line.messages.mapRanges id = line.messages := by
    simp [Messages.mapRanges, Diagnostic.mapRange]
  have hkind : line.kind.mapRanges id = line.kind := by
    cases line.kind <;> simp [LineKind.mapRanges, Token.mapRange, Argument.mapRanges_id]
  rw [mapRanges, hmessages, hkind]
  rfl

end Congruence

/-! ## Moving well placed lines -/

namespace Range

/-- A range that lies on a row lies on every row to which it is put. -/
theorem Within.atRow {row width : Nat} {r : Range} (h : r.Within row width) (target : Nat) :
    (r.atRow target).Within target width :=
  ⟨rfl, rfl, h.start_le, h.stop_le⟩

/-- Ranges on one row keep their order on another. -/
theorem sorted_atRow {row : Nat} {ranges : List Range} (h : ∀ r ∈ ranges, r.start.row = row)
    (target : Nat) : sorted (ranges.map (.atRow target)) = (sorted ranges).map (.atRow target) := by
  refine (List.map_mergeSort fun r hr s hs => ?_).symm
  have hrow : r.start.row = s.start.row := (h r hr).trans (h s hs).symm
  have hmoved : (r.atRow target).start.row = (s.atRow target).start.row := rfl
  rw [decide_eq_decide, Point.le_iff_of_row_eq hrow, Point.le_iff_of_row_eq hmoved]
  rfl

end Range

namespace Line

variable {line : Line} {row : Nat}

/-- All ranges of a well placed line are on its row. -/
theorem WellPlaced.onRow (h : line.WellPlaced row) {r : Range} (hr : r ∈ line.ranges) :
    r.start.row = row ∧ r.stop.row = row := by
  rw [ranges, List.mem_cons, List.mem_append] at hr
  rcases hr with rfl | hr | hr
  · exact ⟨by rw [h.start_eq], h.stop_row⟩
  · exact ⟨(h.diagnostics r hr).start_row, (h.diagnostics r hr).stop_row⟩
  · exact ⟨(h.tokens r hr).start_row, (h.tokens r hr).stop_row⟩

/-- Moving a well placed line puts all its ranges on one row. -/
theorem WellPlaced.shiftRows_eq (h : line.WellPlaced row) (delta : Int) :
    line.shiftRows delta = line.mapRanges (.atRow (shiftRow delta row)) := by
  refine mapRanges_congr fun r hr => ?_
  obtain ⟨hstart, hstop⟩ := h.onRow hr
  rw [Range.shiftRows, Range.atRow, hstart, hstop]

/-- A well placed line stays as it is when its ranges are put on its row. -/
theorem WellPlaced.mapRanges_atRow_self (h : line.WellPlaced row) :
    line.mapRanges (.atRow row) = line := by
  have hsame : ∀ r ∈ line.ranges, r.atRow row = id r := by
    intro r hr
    obtain ⟨hstart, hstop⟩ := h.onRow hr
    calc r.atRow row = ⟨⟨r.start.row, r.start.column⟩, ⟨r.stop.row, r.stop.column⟩⟩ := by
          rw [hstart, hstop, Range.atRow]
      _ = id r := rfl
  rw [mapRanges_congr hsame, mapRanges_id]

/-- A well placed line is well placed on every row to which its ranges are put. -/
theorem WellPlaced.mapRanges_atRow (h : line.WellPlaced row) (target : Nat) :
    (line.mapRanges (.atRow target)).WellPlaced target := by
  have hkind : (line.mapRanges (.atRow target)).kind.ranges =
      line.kind.ranges.map (.atRow target) := LineKind.ranges_mapRanges _ _
  have hmessages : (line.mapRanges (.atRow target)).messages.ranges =
      line.messages.ranges.map (.atRow target) := Messages.ranges_mapRanges _ _
  constructor
  case start_eq => exact congrArg (Point.mk target) (congrArg Point.column h.start_eq)
  case stop_row => rfl
  case invalid_iff => simpa [mapRanges, Messages.mapRanges] using h.invalid_iff
  case diagnostics =>
    rw [hmessages]
    exact List.forall_mem_map.2 fun r hr => (h.diagnostics r hr).atRow target
  case tokens =>
    rw [hkind]
    exact List.forall_mem_map.2 fun r hr => (h.tokens r hr).atRow target
  case apart =>
    rw [hkind, Range.sorted_atRow (fun r hr => (h.tokens r hr).start_row), List.pairwise_map]
    refine h.apart.imp_of_mem fun {r s} hr hs hle => ?_
    have hr' := h.tokens r ((Range.sorted_perm _).mem_iff.1 hr)
    have hs' := h.tokens s ((Range.sorted_perm _).mem_iff.1 hs)
    have hcolumn := (Point.le_iff_of_row_eq (hr'.stop_row.trans hs'.start_row.symm)).1 hle
    exact .inr ⟨rfl, hcolumn⟩

end Line

/-! ## The three parts of a splice -/

namespace Source

variable (source : Source) {current : List String} {previous : List Line} {change : Change}

/-- The lines above a change are kept. -/
theorem getElem?_spliced_above (h : change.Fits previous.length current.length) {i : Nat}
    (hi : i < change.startRow) :
    (source.spliced current previous change)[i]? = previous[i]? := by
  have hold := h.1
  have habove : i < (previous.take change.startRow).length := by
    rw [List.length_take]
    omega
  rw [spliced, List.append_assoc, List.getElem?_append_left habove, List.getElem?_take, if_pos hi]

/-- The changed rows are read. -/
theorem getElem?_spliced_changed (h : change.Fits previous.length current.length) {i : Nat}
    (hi : i ≤ change.newExtent) :
    (source.spliced current previous change)[change.startRow + i]? =
      current[change.startRow + i]?.map fun text => source.line text (change.startRow + i) := by
  obtain ⟨hold, hnew⟩ := h
  have habove : (previous.take change.startRow).length = change.startRow := by
    rw [List.length_take]
    omega
  have hchanged : i < (source.linesFrom change.startRow
      ((current.drop change.startRow).take (change.newExtent + 1))).length := by
    rw [length_linesFrom, List.length_take, List.length_drop]
    omega
  rw [spliced, List.append_assoc, List.getElem?_append_right (by omega), habove,
    Nat.add_sub_cancel_left, List.getElem?_append_left hchanged, linesFrom, List.getElem?_map,
    List.getElem?_zipIdx, List.getElem?_take, if_pos (by omega), List.getElem?_drop,
    Option.map_map]
  rfl

/-- The lines below a change are moved, unless they stay on their rows. -/
theorem getElem?_spliced_below (h : change.Fits previous.length current.length) (i : Nat) :
    (source.spliced current previous change)[change.startRow + change.newExtent + 1 + i]? =
      previous[change.startRow + change.oldExtent + 1 + i]?.map fun line =>
        if change.rowDelta = 0 then line else line.shiftRows change.rowDelta := by
  obtain ⟨hold, hnew⟩ := h
  have hlength : (previous.take change.startRow ++ source.linesFrom change.startRow
      ((current.drop change.startRow).take (change.newExtent + 1))).length =
        change.startRow + change.newExtent + 1 := by
    rw [List.length_append, length_linesFrom, List.length_take, List.length_take,
      List.length_drop]
    omega
  rw [spliced, List.getElem?_append_right (by omega), hlength, Nat.add_sub_cancel_left]
  split_ifs
  · rw [List.getElem?_drop, Option.map_id']
  · rw [List.getElem?_map, List.getElem?_drop]

section Moved

variable {i : Nat} {old : Line}

/-- The row of a line below a change that comes to lie among the current rows is moved as a number
is. -/
theorem shiftRow_below (hrow : change.startRow + change.newExtent + 1 + i ≤ maxRow) :
    shiftRow change.rowDelta (change.startRow + change.oldExtent + 1 + i) =
      change.startRow + change.newExtent + 1 + i := by
  refine shiftRow_eq ?_ hrow
  rw [Change.rowDelta]
  omega

/-- A well placed line below a change, moved or left, is the line with its ranges put on its new
row. -/
theorem moved_eq (hold : old.WellPlaced (change.startRow + change.oldExtent + 1 + i))
    (hrow : change.startRow + change.newExtent + 1 + i ≤ maxRow) :
    (if change.rowDelta = 0 then old else old.shiftRows change.rowDelta) =
      old.mapRanges (.atRow (change.startRow + change.newExtent + 1 + i)) := by
  split_ifs with hzero
  · have hextent : change.newExtent = change.oldExtent := by
      rw [Change.rowDelta] at hzero
      omega
    rw [hextent, hold.mapRanges_atRow_self]
  · rw [hold.shiftRows_eq, shiftRow_below hrow]

end Moved

/-- The lines that a splice puts together are well placed if the previous lines are. -/
theorem wellPlaced_spliced (hprevious : WellFormed previous)
    (hfits : change.Fits previous.length current.length) (hfit : current.length ≤ maxRow + 1)
    (hlength : current.length = previous.length - change.oldExtent + change.newExtent) {i : Nat}
    {line : Line} (h : (source.spliced current previous change)[i]? = some line) :
    line.WellPlaced i := by
  have hplaced := wellFormed_iff.1 hprevious
  have hi : i < current.length := by
    have hlt := (List.getElem?_eq_some_iff.1 h).1
    rwa [source.length_spliced hfits, ← hlength] at hlt
  -- Above the change, within it or below it.
  rcases lt_or_ge i change.startRow with habove | hstart
  · rw [source.getElem?_spliced_above hfits habove] at h
    exact hplaced i line h
  rcases le_or_gt i (change.startRow + change.newExtent) with hchanged | hbelow
  · obtain ⟨j, rfl⟩ := Nat.exists_eq_add_of_le hstart
    rw [source.getElem?_spliced_changed hfits (by omega)] at h
    obtain ⟨text, -, rfl⟩ := Option.map_eq_some_iff.1 h
    exact (Line.traced_read _ text.toList source.file source.vocabulary).wellPlaced
  · obtain ⟨j, rfl⟩ := Nat.exists_eq_add_of_le (Nat.succ_le_of_lt hbelow)
    rw [Nat.succ_eq_add_one] at h hi ⊢
    rw [source.getElem?_spliced_below hfits] at h
    obtain ⟨old, hold, rfl⟩ := Option.map_eq_some_iff.1 h
    rw [moved_eq (hplaced _ old hold) (by omega)]
    exact (hplaced _ old hold).mapRanges_atRow _

/-- Bringing well-formed lines up to date by a change gives well-formed lines, one for each row,
also if the previous lines are not the lines of any rows, or were read with another vocabulary. The
lines above the change are kept. Those below it differ from what they were in the rows of their
ranges only: all of them are on the new row of the line, to which none is brought by stopping at the
first or at the greatest row. Rows are 64-bit words. -/
theorem update_wellFormed {lines : List Line} (hprevious : WellFormed previous)
    (h : source.update current (some previous) (some change) = .ok lines)
    (hfit : current.length ≤ maxRow + 1) :
    WellFormed lines ∧ lines.length = current.length ∧
      (∀ i (line : Line), lines[i]? = some line → line.range.start.row = i) ∧
      (∀ i < change.startRow, lines[i]? = previous[i]?) ∧
      ∀ i (old : Line), previous[change.startRow + change.oldExtent + 1 + i]? = some old →
        lines[change.startRow + change.newExtent + 1 + i]? =
            some (old.mapRanges (.atRow (change.startRow + change.newExtent + 1 + i))) ∧
          ∀ r ∈ old.ranges,
            (shiftRow change.rowDelta r.start.row : Int) = r.start.row + change.rowDelta ∧
            (shiftRow change.rowDelta r.stop.row : Int) = r.stop.row + change.rowDelta := by
  obtain ⟨hfits, hlength, rfl⟩ : change.Fits previous.length current.length ∧
      current.length = previous.length - change.oldExtent + change.newExtent ∧
      lines = source.spliced current previous change := by
    rcases source.update_change_cases current previous change with
      ⟨-, hupdate⟩ | ⟨-, row, -, hupdate⟩ | ⟨-, -, -, hupdate⟩ | ⟨hfits, -, hlength, hupdate⟩
    · cases h.symm.trans hupdate
    · cases h.symm.trans hupdate
    · cases h.symm.trans hupdate
    · exact ⟨hfits, hlength, Except.ok.inj (h.symm.trans hupdate)⟩
  have hplaced (i : Nat) (line : Line)
      (hline : (source.spliced current previous change)[i]? = some line) : line.WellPlaced i :=
    source.wellPlaced_spliced hprevious hfits hfit hlength hline
  refine ⟨wellFormed_iff.2 hplaced, ?_, fun i line hline => ?_,
    fun i hi => source.getElem?_spliced_above hfits hi, fun i old hold => ?_⟩
  · rw [source.length_spliced hfits, hlength]
  · rw [(hplaced i line hline).start_eq]
  · have hwell := wellFormed_iff.1 hprevious _ old hold
    have hrow : change.startRow + change.newExtent + 1 + i ≤ maxRow := by
      have hlt := (List.getElem?_eq_some_iff.1 hold).1
      have := hfits.1
      omega
    refine ⟨?_, fun r hr => ?_⟩
    · rw [source.getElem?_spliced_below hfits, hold, Option.map_some, moved_eq hwell hrow]
    · obtain ⟨hstart, hstop⟩ := hwell.onRow hr
      rw [hstart, hstop, shiftRow_below hrow, Change.rowDelta]
      constructor <;> omega

/-- Two lines that no row has: one has information on its last column, and a rule has a name of no
characters in front of its keyword. -/
def forgedLines : List Line :=
  [⟨.onRow 0 0 4, false, ⟨[], [], [⟨"last", none, none, none, .onRow 0 3 4, none⟩]⟩, .empty⟩,
    ⟨.onRow 1 0 9, false, .none,
      .rule ⟨⟨.condition .baseType, .onRow 1 2 6⟩, some ⟨.less, .onRow 1 6 7⟩,
        .names [⟨"", .onRow 1 0 0⟩, ⟨"Ring", .onRow 1 7 9⟩], none⟩⟩]

/-- The lines are well-formed all the same, and the second one moves down when the first row becomes
two rows. -/
theorem update_wellFormed_forgedLines :
    WellFormed forgedLines ∧ ∃ lines,
      (⟨none, .builtin, 0⟩ : Source).update ["Show", "Class", "x"] (some forgedLines)
        (some ⟨0, 0, 1⟩) = .ok lines ∧
      WellFormed lines ∧ lines.map Line.invalid = [false, true, false] ∧
      lines[2]? = forgedLines[1]?.map (·.mapRanges (.atRow 2)) := by
  have hformed : WellFormed forgedLines := by cbv
  have hread : ((⟨none, .builtin, 0⟩ : Source).update ["Show", "Class", "x"] (some forgedLines)
      (some ⟨0, 0, 1⟩)).map (List.map Line.invalid) = .ok [false, true, false] := by decide +kernel
  cases hupdate : (⟨none, .builtin, 0⟩ : Source).update ["Show", "Class", "x"] (some forgedLines)
      (some ⟨0, 0, 1⟩) with
  | error misuse =>
    rw [hupdate] at hread
    cases hread
  | ok lines =>
    rw [hupdate] at hread
    obtain ⟨hlines, -, -, -, hbelow⟩ := update_wellFormed _ hformed hupdate (by decide)
    exact ⟨hformed, lines, rfl, hlines, Except.ok.inj hread, (hbelow 0 _ rfl).1⟩

end Source

end ItemFilter
