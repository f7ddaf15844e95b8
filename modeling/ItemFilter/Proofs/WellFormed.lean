import ItemFilter.Line.WellFormed
import ItemFilter.Proofs.Coverage

/-!
# The lines of a text are well-formed

The check of a list of lines finds nothing exactly when every line is well placed on its row
(`wellFormed_iff`), where `Line.WellPlaced` says in words what the check computes. That it suffices
to compare neighbours among the sorted tokens rests on no token being reversed
(`Range.overlaps_eq_nil_iff`).

A line that is traced in the text of its row is well placed: its tokens lie apart and none of them
is empty, so that in the order of their starts each one stops before the next
(`Range.pairwise_sorted`). Every line that is read is traced, hence the lines of all rows are
well-formed.
-/

namespace ItemFilter

/-! ## The order of places -/

namespace Point

/-- The order of places is transitive. -/
theorem le_trans {p q r : Point} (hpq : p ≤ q) (hqr : q ≤ r) : p ≤ r := by
  rcases hpq with hrow | ⟨hrow, hcolumn⟩ <;> rcases hqr with hrow' | ⟨hrow', hcolumn'⟩
  · exact .inl (hrow.trans hrow')
  · exact .inl (hrow' ▸ hrow)
  · exact .inl (hrow ▸ hrow')
  · exact .inr ⟨hrow.trans hrow', hcolumn.trans hcolumn'⟩

/-- Of two places, one is not behind the other. -/
theorem le_total (p q : Point) : p ≤ q ∨ q ≤ p := by
  rcases lt_trichotomy p.row q.row with hrow | hrow | hrow
  · exact .inl (.inl hrow)
  · rcases Nat.le_total p.column q.column with hcolumn | hcolumn
    · exact .inl (.inr ⟨hrow, hcolumn⟩)
    · exact .inr (.inr ⟨hrow.symm, hcolumn⟩)
  · exact .inr (.inl hrow)

/-- On one row, places are ordered by their columns. -/
theorem le_iff_of_row_eq {p q : Point} (h : p.row = q.row) : p ≤ q ↔ p.column ≤ q.column := by
  refine ⟨fun hle => ?_, fun hle => .inr ⟨h, hle⟩⟩
  rcases hle with hrow | ⟨-, hcolumn⟩
  · omega
  · exact hcolumn

end Point

/-! ## What the check finds -/

/-- Whether there is an error is computed from the list of errors. -/
theorem Messages.hasErrors_iff {m : Messages} : m.hasErrors = true ↔ m.errors ≠ [] := by
  rw [hasErrors, Bool.not_eq_true', List.isEmpty_eq_false_iff]

namespace Range

/-- A range breaks no rule exactly when it lies on the row and does not reach beyond the line. -/
theorem violations_eq_nil_iff {r line : Range} {row : Nat} {what : String} :
    r.violations row line what = [] ↔ r.Within row line.stop.column := by
  simp only [violations, List.append_eq_nil_iff, ite_eq_left_iff, List.cons_ne_nil, imp_false,
    not_not]
  constructor
  · rintro ⟨⟨⟨hstart, hstop⟩, hle⟩, hwidth⟩
    exact ⟨hstart, hstop, (Point.le_iff_of_row_eq (hstart.trans hstop.symm)).1 hle, hwidth⟩
  · rintro ⟨hstart, hstop, hle, hwidth⟩
    exact ⟨⟨⟨hstart, hstop⟩, .inr ⟨hstart.trans hstop.symm, hle⟩⟩, hwidth⟩

/-- No neighbours overlap exactly when every range stops before all later ones start, provided that
no range is reversed. -/
theorem overlaps_eq_nil_iff {row : Nat} {ranges : List Range}
    (h : ∀ r ∈ ranges, r.start ≤ r.stop) :
    overlaps row ranges = [] ↔ ranges.Pairwise fun r s => r.stop ≤ s.start := by
  induction ranges with
  | nil => exact iff_of_true rfl .nil
  | cons r ranges ih =>
    obtain ⟨-, hrest⟩ := List.forall_mem_cons.1 h
    cases ranges with
    | nil => exact iff_of_true rfl (List.pairwise_singleton _ _)
    | cons s ranges =>
      have hcons : overlaps row (r :: s :: ranges) = [] ↔
          r.stop ≤ s.start ∧ overlaps row (s :: ranges) = [] := by
        by_cases hle : r.stop ≤ s.start <;> simp [overlaps, hle]
      rw [hcons, ih hrest, List.pairwise_cons (a := r)]
      constructor
      · rintro ⟨hle, hpairwise⟩
        refine ⟨fun t ht => ?_, hpairwise⟩
        rcases List.mem_cons.1 ht with rfl | ht
        · exact hle
        · -- The neighbour stops before the later range and is not reversed.
          have hlater := (List.pairwise_cons.1 hpairwise).1 t ht
          have hneighbour := hrest s List.mem_cons_self
          exact Point.le_trans hle (Point.le_trans hneighbour hlater)
      · exact fun ⟨hall, hpairwise⟩ => ⟨hall s List.mem_cons_self, hpairwise⟩

/-- Sorting changes nothing but the order of the ranges. -/
theorem sorted_perm (ranges : List Range) : (sorted ranges).Perm ranges :=
  List.mergeSort_perm ranges _

/-- Ranges that lie apart and are not empty stop, in the order of their starts, before the next one
starts. -/
theorem pairwise_sorted {ranges : List Range} (hapart : ranges.Pairwise Apart)
    (hfull : ∀ r ∈ ranges, ¬ r.stop ≤ r.start) :
    (sorted ranges).Pairwise fun r s => r.stop ≤ s.start := by
  have hsorted : (sorted ranges).Pairwise fun r s => decide (r.start ≤ s.start) = true := by
    apply List.pairwise_mergeSort
    · intro r s t hrs hst
      exact decide_eq_true (Point.le_trans (of_decide_eq_true hrs) (of_decide_eq_true hst))
    · intro r s
      simpa using Point.le_total r.start s.start
  have hapart' : (sorted ranges).Pairwise Apart :=
    ((sorted_perm ranges).pairwise_iff Apart.symm).2 hapart
  refine (hsorted.and hapart').imp_of_mem fun {r s} _ hs hrs => ?_
  obtain ⟨hstart, hbefore | hbehind⟩ := hrs
  · exact hbefore
  · -- A range that starts later cannot stop before the start of the other.
    have hempty := Point.le_trans hbehind (of_decide_eq_true hstart)
    exact absurd hempty (hfull s ((sorted_perm ranges).mem_iff.1 hs))

end Range

namespace Line

/-- A line is well placed on a row. -/
structure WellPlaced (row : Nat) (line : Line) : Prop where
  /-- The line starts at the first column of the row. -/
  start_eq : line.range.start = ⟨row, 0⟩
  /-- The line ends on the row. -/
  stop_row : line.range.stop.row = row
  /-- The line is invalid exactly when there is an error. -/
  invalid_iff : line.invalid = true ↔ line.messages.errors ≠ []
  /-- All diagnostics lie on the row, and none reaches beyond the line. -/
  diagnostics : ∀ r ∈ line.messages.ranges, r.Within row line.range.stop.column
  /-- All tokens lie on the row, and none reaches beyond the line. -/
  tokens : ∀ r ∈ line.kind.ranges, r.Within row line.range.stop.column
  /-- In the order of their starts, every token stops before the next ones start. -/
  apart : (Range.sorted line.kind.ranges).Pairwise fun r s => r.stop ≤ s.start

/-- A line breaks no rule exactly when it is well placed. -/
theorem violations_eq_nil_iff {line : Line} {row : Nat} :
    line.violations row = [] ↔ line.WellPlaced row := by
  have hmark : line.invalid = line.messages.hasErrors ↔
      (line.invalid = true ↔ line.messages.errors ≠ []) := by
    rw [Bool.eq_iff_iff, Messages.hasErrors_iff]
  have hdiagnostics : (line.messages.toList.flatMap fun x =>
        x.2.range.violations row line.range x.2.excerpt) = [] ↔
      ∀ r ∈ line.messages.ranges, r.Within row line.range.stop.column := by
    simp only [List.flatMap_eq_nil_iff, Range.violations_eq_nil_iff, Messages.ranges,
      List.forall_mem_map]
  have htokens : (line.kind.ranges.flatMap fun r => r.violations row line.range "token") = [] ↔
      ∀ r ∈ line.kind.ranges, r.Within row line.range.stop.column := by
    simp only [List.flatMap_eq_nil_iff, Range.violations_eq_nil_iff]
  -- Tokens on the row are not reversed, and they are still the same when they are sorted.
  have hoverlaps (h : ∀ r ∈ line.kind.ranges, r.Within row line.range.stop.column) :
      Range.overlaps row (Range.sorted line.kind.ranges) = [] ↔
        (Range.sorted line.kind.ranges).Pairwise fun r s => r.stop ≤ s.start := by
    refine Range.overlaps_eq_nil_iff fun r hr => ?_
    have hwithin := h r ((Range.sorted_perm _).mem_iff.1 hr)
    exact .inr ⟨hwithin.start_row.trans hwithin.stop_row.symm, hwithin.start_le⟩
  simp only [violations, List.append_eq_nil_iff, ite_eq_left_iff, List.cons_ne_nil, imp_false,
    not_not, hmark]
  rw [hdiagnostics, htokens]
  constructor
  · rintro ⟨⟨⟨⟨⟨⟨hrow, hstop⟩, hcolumn⟩, hinvalid⟩, hwithin⟩, hwithin'⟩, hnone⟩
    exact ⟨Point.mk.injEq .. ▸ ⟨hrow, hcolumn⟩, hstop, hinvalid, hwithin, hwithin',
      (hoverlaps hwithin').1 hnone⟩
  · intro h
    exact ⟨⟨⟨⟨⟨⟨by rw [h.start_eq], h.stop_row⟩, by rw [h.start_eq]⟩, h.invalid_iff⟩,
      h.diagnostics⟩, h.tokens⟩, (hoverlaps h.tokens).2 h.apart⟩

/-- A line that is traced in the text of its row is well placed there. -/
theorem Traced.wellPlaced {row : Nat} {text : List Char} {line : Line}
    (h : line.Traced row text) : line.WellPlaced row := by
  have hwidth : line.range.stop.column = text.length := by rw [h.range_eq]; rfl
  refine ⟨by rw [h.range_eq]; rfl, by rw [h.range_eq]; rfl, ?_, ?_, ?_, ?_⟩
  · rw [h.invalid_eq, Messages.hasErrors_iff]
  · rw [hwidth]
    exact List.forall_mem_map.2 h.within
  · rw [hwidth]
    exact fun r hr => (h.mem hr).1
  · refine Range.pairwise_sorted h.pairwise_apart fun r hr hempty => ?_
    obtain ⟨hwithin, hlt⟩ := h.mem hr
    have hle := (Point.le_iff_of_row_eq (hwithin.stop_row.trans hwithin.start_row.symm)).1 hempty
    omega

end Line

/-! ## Lists of lines -/

/-- A list of lines is well-formed exactly when every line is well placed on the row whose number is
its index. -/
theorem wellFormed_iff {lines : List Line} :
    WellFormed lines ↔ ∀ i (line : Line), lines[i]? = some line → line.WellPlaced i := by
  simp only [WellFormed, violations, List.flatMap_eq_nil_iff, Line.violations_eq_nil_iff]
  refine ⟨fun h i line hget => h (line, i) (List.mem_zipIdx_iff_getElem?.2 hget), ?_⟩
  rintro h ⟨line, i⟩ hmem
  exact h i line (List.mem_zipIdx_iff_getElem?.1 hmem)

namespace Source

variable (source : Source)

/-- The line of a row is the one with the row's index. -/
theorem getElem?_lines (rows : List String) (i : Nat) :
    (source.lines rows)[i]? = rows[i]?.map fun text => source.line text i := by
  rw [lines, linesFrom, List.getElem?_map, List.getElem?_zipIdx, Option.map_map, Nat.zero_add]
  rfl

/-- Rows without line breaks are all read. There is one line for each row, the check of the lines
finds nothing, and so each line is well placed on its row. -/
theorem readAll_wellFormed {rows : List String} (h : ∀ row ∈ rows, IsRow row) :
    ∃ lines, source.readAll rows = .ok lines ∧ lines.length = rows.length ∧ WellFormed lines ∧
      ∀ i (line : Line), lines[i]? = some line → line.WellPlaced i := by
  have hplaced (i : Nat) (line : Line) (hget : (source.lines rows)[i]? = some line) :
      line.WellPlaced i := by
    rw [getElem?_lines] at hget
    obtain ⟨text, -, rfl⟩ := Option.map_eq_some_iff.1 hget
    exact (Line.traced_read i text.toList source.file source.vocabulary).wellPlaced
  exact ⟨source.lines rows, source.readAll_eq_ok h, source.length_linesFrom 0 rows,
    wellFormed_iff.2 hplaced, hplaced⟩

/-- A header with text behind it, rules of which one has a colour channel and one a name too much, a
blank row, a comment behind a wide blank and a row that starts with no word. -/
def mixedRows : List String :=
  ["Show Rüstung", "  Quality > 500 # huh", "  SetTextColor 1 2 3 4 5", "Class Boots \"Bööts\"",
    " \t", "\u3000# x ", "= 7"]

/-- The rows are right and wrong in turn, and all their lines are well placed. -/
theorem readAll_wellFormed_mixedRows :
    (∀ row ∈ mixedRows, IsRow row) ∧
      ∃ lines, (⟨none, .builtin, 0⟩ : Source).readAll mixedRows = .ok lines ∧
        lines.map Line.invalid = [false, true, true, true, false, false, true] ∧
        WellFormed lines ∧ ∀ i (line : Line), lines[i]? = some line → line.WellPlaced i := by
  have hrows : ∀ row ∈ mixedRows, IsRow row := by decide
  have hread : ((⟨none, .builtin, 0⟩ : Source).readAll mixedRows).map (List.map Line.invalid) =
      .ok [false, true, true, true, false, false, true] := by decide +kernel
  obtain ⟨lines, hlines, -, hformed, hplaced⟩ :=
    readAll_wellFormed ⟨none, .builtin, 0⟩ hrows
  rw [hlines] at hread
  exact ⟨hrows, lines, hlines, Except.ok.inj hread, hformed, hplaced⟩

end Source

end ItemFilter
