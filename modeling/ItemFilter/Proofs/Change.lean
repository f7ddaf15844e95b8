import ItemFilter.Proofs.Row

/-!
# The rows that an edit leaves alone

An edit of a text changes the rows that `Change.ofEdit` names and no other. `ofEdit_relates` states
this for every edit that fits: the rows above the change and the rows below it are the same before
and after, and the change names rows that both texts have.

The changed rows are a window of the text. Before the edit it reaches back to a place where a row
starts in the old and in the new text (`exists_above_lead`), and behind the edit it reaches to the
end of a terminator or of the text (`rowAfter_cases`). What lies outside the window is cut off
cleanly on both sides, so its rows do not depend on what the window holds (`relates_closed`,
`relates_open`).
-/

namespace ItemFilter

open Text

/-! ## Edits -/

/-- A text falls into two parts at a byte offset exactly when the first part has so many bytes. -/
theorem splitAtByte?_eq_some_iff {n : Nat} {cs before after : List Char} :
    splitAtByte? n cs = some (before, after) ↔ cs = before ++ after ∧ byteLength before = n := by
  fun_induction splitAtByte? n cs generalizing before with
  | case1 cs =>
    constructor
    · intro h
      obtain ⟨rfl, rfl⟩ := Prod.mk.inj (Option.some.inj h)
      exact ⟨rfl, rfl⟩
    · rintro ⟨rfl, hlen⟩
      cases before with
      | nil => rfl
      | cons c before =>
        -- Every character takes a byte, so that no bytes are no characters.
        have hpos := c.utf8Size_pos
        simp only [byteLength] at hlen
        omega
  | case2 n =>
    constructor
    · intro h
      cases h
    · rintro ⟨hcs, hlen⟩
      obtain ⟨rfl, rfl⟩ := List.append_eq_nil_iff.1 hcs.symm
      simp [byteLength] at hlen
  | case3 n c cs hlt =>
    -- The offset lies inside the first character.
    constructor
    · intro h
      cases h
    · rintro ⟨hcs, hlen⟩
      cases before with
      | nil => simp [byteLength] at hlen
      | cons d before =>
        obtain ⟨rfl, rfl⟩ := List.cons.inj hcs
        simp only [byteLength] at hlen
        omega
  | case4 n c cs hlt ih =>
    constructor
    · intro h
      obtain ⟨⟨u, v⟩, huv, heq⟩ := Option.map_eq_some_iff.1 h
      obtain ⟨rfl, rfl⟩ := Prod.mk.inj heq
      obtain ⟨rfl, hlen⟩ := ih.1 huv
      refine ⟨rfl, ?_⟩
      simp only [byteLength]
      omega
    · rintro ⟨hcs, hlen⟩
      cases before with
      | nil => simp [byteLength] at hlen
      | cons d before =>
        obtain ⟨rfl, rfl⟩ := List.cons.inj hcs
        simp only [byteLength] at hlen
        have hrest : byteLength before = n + 1 - c.utf8Size := by omega
        rw [ih.2 ⟨rfl, hrest⟩]
        rfl

/-- The bytes of two texts add up. -/
theorem byteLength_append (u v : List Char) :
    byteLength (u ++ v) = byteLength u + byteLength v := by
  induction u with
  | nil => simp [byteLength]
  | cons c u ih => simp only [List.cons_append, byteLength, ih]; omega

/-- An edit cuts a text into the part before the replaced stretch, the stretch itself and the part
behind it: its two offsets count the bytes up to the stretch and up to its end. -/
structure Edit.Cuts (e : Edit) (text before removed after : List Char) : Prop where
  /-- The three parts make up the text. -/
  text_eq : text = before ++ removed ++ after
  /-- The first part ends where the edit starts. -/
  start_eq : byteLength before = e.start
  /-- The second part ends where the edit stops. -/
  stop_eq : byteLength (before ++ removed) = e.stop

/-- The parts of a text around an edit are those into which the edit cuts it. -/
theorem Edit.split?_eq_some_iff {e : Edit} {text before removed after : List Char} :
    e.split? text = some (before, removed, after) ↔ e.Cuts text before removed after := by
  unfold Edit.split?
  constructor
  · intro h
    split_ifs at h with hle
    -- The first cut is made in the text, the second in what the first leaves.
    obtain ⟨⟨u, rest⟩, hfirst, h⟩ := Option.bind_eq_some_iff.1 h
    obtain ⟨⟨r, v⟩, hsecond, h⟩ := Option.bind_eq_some_iff.1 h
    simp only [Option.some.injEq, Prod.mk.injEq] at h
    obtain ⟨rfl, rfl, rfl⟩ := h
    obtain ⟨rfl, hstart⟩ := splitAtByte?_eq_some_iff.1 hfirst
    obtain ⟨rfl, hstop⟩ := splitAtByte?_eq_some_iff.1 hsecond
    refine ⟨(List.append_assoc _ _ _).symm, hstart, ?_⟩
    rw [byteLength_append]
    omega
  · rintro ⟨rfl, hstart, hstop⟩
    rw [byteLength_append] at hstop
    have hfirst : splitAtByte? e.start (before ++ removed ++ after) =
        some (before, removed ++ after) :=
      splitAtByte?_eq_some_iff.2 ⟨List.append_assoc _ _ _, hstart⟩
    have hsecond : splitAtByte? (e.stop - e.start) (removed ++ after) = some (removed, after) :=
      splitAtByte?_eq_some_iff.2 ⟨rfl, by omega⟩
    rw [if_pos (by omega), hfirst]
    simp [hsecond]

/-! ## Changes between two lists of rows -/

/-- A change relates two lists of rows when it names rows that both have, and the rows above and
below are the same in both. -/
structure Change.Relates {α : Type} (change : Change) (old new : List α) : Prop where
  /-- The old list has the rows that were replaced. -/
  old_lt : change.startRow + change.oldExtent < old.length
  /-- The new list has the rows that replace them. -/
  new_lt : change.startRow + change.newExtent < new.length
  /-- The rows above are the same. -/
  above : old.take change.startRow = new.take change.startRow
  /-- The rows below are the same. -/
  below : old.drop (change.startRow + change.oldExtent + 1) =
    new.drop (change.startRow + change.newExtent + 1)

/-- The numbers of rows differ as the extents do. -/
theorem Change.Relates.length_eq {α : Type} {change : Change} {old new : List α}
    (h : change.Relates old new) :
    new.length + change.oldExtent = old.length + change.newExtent := by
  have hlen := congrArg List.length h.below
  rw [List.length_drop, List.length_drop] at hlen
  have hold := h.old_lt
  have hnew := h.new_lt
  omega

/-- A change that relates two lists of rows also relates what the rows are turned into. -/
theorem Change.Relates.map {α β : Type} (f : α → β) {change : Change} {old new : List α}
    (h : change.Relates old new) : change.Relates (old.map f) (new.map f) where
  old_lt := by rw [List.length_map]; exact h.old_lt
  new_lt := by rw [List.length_map]; exact h.new_lt
  above := by rw [← List.map_take, ← List.map_take, h.above]
  below := by rw [← List.map_drop, ← List.map_drop, h.below]

/-- Two lists with a common beginning and a common end are related by the change of what lies in
between, which is not empty in either. -/
theorem Change.relates_append {α : Type} (above below : List α) {old new : List α}
    (hold : old ≠ []) (hnew : new ≠ []) :
    Change.Relates ⟨above.length, old.length - 1, new.length - 1⟩ (above ++ old ++ below)
      (above ++ new ++ below) := by
  have holdPos := List.length_pos_iff.2 hold
  have hnewPos := List.length_pos_iff.2 hnew
  have drop_eq (mid : List α) (hpos : 0 < mid.length) :
      (above ++ mid ++ below).drop (above.length + (mid.length - 1) + 1) = below := by
    have hlen : above.length + (mid.length - 1) + 1 = (above ++ mid).length := by
      rw [List.length_append]; omega
    rw [hlen, List.drop_left]
  constructor
  · simp only [List.length_append]; omega
  · simp only [List.length_append]; omega
  · rw [List.append_assoc, List.append_assoc, List.take_left, List.take_left]
  · rw [drop_eq old holdPos, drop_eq new hnewPos]

/-! ## Windows

`above`, a window and `below` make up a text, and only the window changes. -/

section Windows

variable {above old new below : List Char}

/-- The rows around a window that ends a row, with clean cuts on both sides. -/
theorem rows_around {window : List Char} (habove : EndsRow above)
    (hcut : Change.insideTerminator above (window ++ below) = false) (hwindow : EndsRow window)
    (hcut' : Change.insideTerminator window below = false) :
    rows (above ++ window ++ below) =
      (rows above).dropLast ++ (rows window).dropLast ++ rows below := by
  rw [List.append_assoc, rows_append habove hcut, rows_append hwindow hcut', List.append_assoc]

/-- The change of a window that ends a row before and after, with clean cuts around it. -/
theorem relates_closed (habove : EndsRow above)
    (hcutOld : Change.insideTerminator above (old ++ below) = false)
    (hcutNew : Change.insideTerminator above (new ++ below) = false)
    (hold : EndsRow old) (holdPos : 0 < terminators old)
    (hcutOld' : Change.insideTerminator old below = false)
    (hnew : EndsRow new) (hnewPos : 0 < terminators new)
    (hcutNew' : Change.insideTerminator new below = false) :
    Change.Relates ⟨terminators above, terminators old - 1, terminators new - 1⟩
      (rows (above ++ old ++ below)) (rows (above ++ new ++ below)) := by
  rw [rows_around habove hcutOld hold hcutOld', rows_around habove hcutNew hnew hcutNew']
  -- A window that ends with a terminator has a row.
  have ne_nil (window : List Char) (hpos : 0 < terminators window) :
      (rows window).dropLast ≠ [] := by
    rw [← length_dropLast_rows] at hpos
    exact List.length_pos_iff.1 hpos
  have h := Change.relates_append (rows above).dropLast (rows below) (ne_nil old holdPos)
    (ne_nil new hnewPos)
  rwa [length_dropLast_rows, length_dropLast_rows, length_dropLast_rows] at h

/-- The change of a window that reaches to the end of the text, with a clean cut before it. -/
theorem relates_open (habove : EndsRow above)
    (hcutOld : Change.insideTerminator above old = false)
    (hcutNew : Change.insideTerminator above new = false) :
    Change.Relates ⟨terminators above, terminators old, terminators new⟩
      (rows (above ++ old)) (rows (above ++ new)) := by
  rw [rows_append habove hcutOld, rows_append habove hcutNew]
  have h := Change.relates_append (rows above).dropLast [] (rows_ne_nil old) (rows_ne_nil new)
  rwa [length_dropLast_rows, length_rows, length_rows, List.append_nil, List.append_nil] at h

end Windows

/-! ## Where the window of an edit starts and ends -/

namespace Change

/-- A cut is clean if no line feed follows it. -/
theorem insideTerminator_of_head? {u v : List Char} (h : v.head? ≠ some '\n') :
    insideTerminator u v = false := by
  rw [Bool.eq_false_iff, Ne, insideTerminator_iff]
  exact fun hin => h hin.2

/-- Before its last row a text ends a row, and its last row holds no line break. -/
theorem exists_above_lastRow (cs : List Char) :
    ∃ above, cs = above ++ lastRow cs ∧ EndsRow above ∧
      ∀ c ∈ lastRow cs, isLineBreak c = false := by
  refine ⟨cs.rdropWhile fun c => !isLineBreak c, ?_, ?_, ?_⟩
  · exact List.rdropWhile_append_rtakeWhile.symm
  · intro c hc
    obtain ⟨hne, rfl⟩ := List.mem_getLast?_eq_getLast hc
    simpa using List.rdropWhile_last_not (fun c => !isLineBreak c) cs hne
  · intro c hc
    simpa using List.mem_rtakeWhile_imp hc

/-- The window reaches back over a carriage return exactly when a line feed follows it before or
after the edit. -/
theorem lead_eq (before removed inserted after : List Char) :
    lead before removed inserted after =
      if insideTerminator before (removed ++ after) || insideTerminator before (inserted ++ after)
      then lastRow before.dropLast ++ ['\r'] else lastRow before := by
  have hfeed : (inserted.head? == some '\n' || inserted.isEmpty && after.head? == some '\n') =
      ((inserted ++ after).head? == some '\n') := by
    cases inserted <;> simp
  unfold lead rowBefore
  rw [hfeed]
  by_cases hold : insideTerminator before (removed ++ after) = true
  · simp [hold]
  · rw [Bool.not_eq_true] at hold
    by_cases hnew : insideTerminator before (inserted ++ after) = true
    · -- A text that ends with a carriage return has an empty last row.
      obtain ⟨hlast, hhead⟩ := insideTerminator_iff.1 hnew
      obtain ⟨init, rfl⟩ := List.getLast?_eq_some_iff.1 hlast
      have hempty : lastRow (init ++ ['\r']) = [] := by simp [lastRow, isLineBreak]
      simp [hold, hnew, hempty, hhead]
    · rw [Bool.not_eq_true] at hnew
      have hpair : (before.getLast? == some '\r' && (inserted ++ after).head? == some '\n') =
          false := hnew
      dsimp only
      rw [hold, hnew, Bool.and_assoc, hpair, Bool.and_false]
      rfl

/-- The window of an edit starts where a row starts in the old and in the new text. -/
theorem exists_above_lead (before removed inserted after : List Char) :
    ∃ above, before = above ++ lead before removed inserted after ∧ EndsRow above ∧
      insideTerminator above (lead before removed inserted after ++ (removed ++ after)) = false ∧
      insideTerminator above (lead before removed inserted after ++ (inserted ++ after)) =
        false := by
  rw [lead_eq]
  split_ifs with hin
  · -- The row of a carriage return that has met, or will meet, a line feed.
    have hlast : before.getLast? = some '\r' := by
      rcases Bool.or_eq_true_iff.1 hin with h | h
      · exact (insideTerminator_iff.1 h).1
      · exact (insideTerminator_iff.1 h).1
    obtain ⟨init, rfl⟩ := List.getLast?_eq_some_iff.1 hlast
    rw [List.dropLast_concat]
    obtain ⟨above, hinit, habove, hrow⟩ := exists_above_lastRow init
    have hhead (rest : List Char) :
        (lastRow init ++ ['\r'] ++ rest).head? ≠ some '\n' := by
      cases h : lastRow init with
      | nil => simp
      | cons c row =>
        rw [h] at hrow
        rintro hc
        obtain rfl : c = '\n' := by simpa using hc
        have := hrow '\n' List.mem_cons_self
        simp [isLineBreak] at this
    refine ⟨above, ?_, habove, insideTerminator_of_head? (hhead _),
      insideTerminator_of_head? (hhead _)⟩
    rw [← List.append_assoc, ← hinit]
  · -- The last row: a line feed can follow the cut only if that row is empty.
    rw [Bool.or_eq_true, not_or, Bool.not_eq_true, Bool.not_eq_true] at hin
    obtain ⟨above, hbefore, habove, hrow⟩ := exists_above_lastRow before
    refine ⟨above, hbefore, habove, ?_⟩
    cases h : lastRow before with
    | nil =>
      rw [h, List.append_nil] at hbefore
      rw [← hbefore]
      exact hin
    | cons c row =>
      rw [h] at hrow
      have hhead (rest : List Char) : (c :: row ++ rest).head? ≠ some '\n' := by
        rintro hc
        obtain rfl : c = '\n' := by simpa using hc
        have := hrow '\n' List.mem_cons_self
        simp [isLineBreak] at this
      exact ⟨insideTerminator_of_head? (hhead _), insideTerminator_of_head? (hhead _)⟩

/-- The window of an edit ends behind a terminator, with a clean cut, or at the end of the text. -/
theorem rowAfter_cases (before after : List Char) :
    (∃ below, after = (rowAfter before after).1 ++ below ∧ (rowAfter before after).2 = true ∧
      (rowAfter before after).1 ≠ [] ∧ EndsRow (rowAfter before after).1 ∧
      insideTerminator (rowAfter before after).1 below = false) ∨
    (rowAfter before after).1 = after ∧ (rowAfter before after).2 = false := by
  unfold rowAfter
  split_ifs with hin
  · -- The line feed that completes a terminator.
    left
    obtain ⟨below, rfl⟩ := List.head?_eq_some_iff.1 (insideTerminator_iff.1 hin).2
    refine ⟨below, rfl, rfl, by simp, ?_, ?_⟩
    · simp [EndsRow, isLineBreak]
    · simp [insideTerminator]
  · obtain ⟨rest, tail, rfl, hrest, htail⟩ := exists_run (fun c => !isLineBreak c) after
    rw [takeWhile_append_of_stop hrest htail]
    dsimp only
    rw [List.drop_left]
    -- What follows the row is a terminator of two characters, of one, or nothing.
    split
    · left
      rename_i below
      refine ⟨below, by simp, rfl, by simp, ?_, ?_⟩
      · simp [EndsRow, isLineBreak]
      · simp [insideTerminator]
    · left
      rename_i c below hpair
      have hc : isLineBreak c = true := by simpa using stops_cons.1 htail
      refine ⟨below, by simp, rfl, by simp, ?_, ?_⟩
      · simpa [EndsRow] using hc
      · rw [Bool.eq_false_iff, Ne, insideTerminator_iff]
        rintro ⟨hlast, hhead⟩
        obtain ⟨below, rfl⟩ := List.head?_eq_some_iff.1 hhead
        exact hpair below (by simpa using hlast) rfl
    · right
      simp

/-- What ends with a part that ends a row ends a row itself. -/
theorem endsRow_append {u v : List Char} (hv : EndsRow v) (hne : v ≠ []) : EndsRow (u ++ v) := by
  intro c hc
  rw [List.getLast?_append_of_ne_nil u hne] at hc
  exact hv c hc

/-- Whether a cut is clean is seen from the part right before it. -/
theorem insideTerminator_append {u v w : List Char} (hne : v ≠ []) :
    insideTerminator (u ++ v) w = insideTerminator v w := by
  unfold insideTerminator
  rw [List.getLast?_append_of_ne_nil u hne]

/-- A window that ends with a terminator holds one, whatever stands before it. -/
theorem terminators_append_pos {u v : List Char} (hv : EndsRow v) (hne : v ≠ []) :
    0 < terminators (u ++ v) :=
  terminators_pos (endsRow_append hv hne) (by simp [hne])

/-- The change of an edit relates the rows of the old text to those of the new one. -/
theorem ofParts_relates (before removed inserted after : List Char) :
    (ofParts before removed inserted after).Relates (rows (before ++ removed ++ after))
      (rows (before ++ inserted ++ after)) := by
  obtain ⟨above, hbefore, habove, hcutOld, hcutNew⟩ :=
    exists_above_lead before removed inserted after
  unfold ofParts
  dsimp only
  generalize lead before removed inserted after = lead at hbefore hcutOld hcutNew ⊢
  subst hbefore
  have hstart : (above ++ lead).take ((above ++ lead).length - lead.length) = above := by
    rw [List.length_append, Nat.add_sub_cancel, List.take_left]
  rw [hstart]
  rcases rowAfter_cases (above ++ lead ++ removed) after with
    ⟨below, hafter, hclosed, hne, htail, hcut⟩ | ⟨hafter, hopen⟩
  · -- The window ends with a terminator.
    rw [hclosed, if_pos rfl]
    generalize (rowAfter (above ++ lead ++ removed) after).1 = tail at hafter hne htail hcut ⊢
    subst hafter
    have hwindow (inner : List Char) : EndsRow (lead ++ inner ++ tail) := endsRow_append htail hne
    have hpos (inner : List Char) : 0 < terminators (lead ++ inner ++ tail) :=
      terminators_append_pos htail hne
    have hcut' (inner : List Char) : insideTerminator (lead ++ inner ++ tail) below = false := by
      rw [insideTerminator_append hne]
      exact hcut
    have h := relates_closed habove (by simpa using hcutOld) (by simpa using hcutNew)
      (hwindow removed) (hpos removed) (hcut' removed) (hwindow inserted) (hpos inserted)
      (hcut' inserted)
    simpa using h
  · -- The window reaches to the end of the text.
    rw [hopen, hafter, if_neg (by simp)]
    have h := relates_open habove hcutOld hcutNew
    simpa using h

/-- Every edit that fits a text has a change, and the change relates the rows of the text to those
of the edited text, so that their numbers differ as its extents do. The extents are counted without
underflow: a window that ends with a terminator holds one before and after the edit. -/
theorem ofEdit_relates (text : String) (e : Edit) (before removed after : List Char)
    (h : e.Cuts text.toList before removed after) :
    ∃ change, ofEdit text e = .ok change ∧
      change.Relates (splitRows text)
        (splitRows (String.ofList (before ++ e.inserted.toList ++ after))) ∧
      (splitRows (String.ofList (before ++ e.inserted.toList ++ after))).length +
          change.oldExtent = (splitRows text).length + change.newExtent ∧
      ((rowAfter (before ++ removed) after).2 = true →
        0 < terminators (lead before removed e.inserted.toList after ++ removed ++
          (rowAfter (before ++ removed) after).1) ∧
        0 < terminators (lead before removed e.inserted.toList after ++ e.inserted.toList ++
          (rowAfter (before ++ removed) after).1)) := by
  have hrelates : (ofParts before removed e.inserted.toList after).Relates (splitRows text)
      (splitRows (String.ofList (before ++ e.inserted.toList ++ after))) := by
    unfold splitRows
    rw [h.text_eq, String.toList_ofList]
    exact (ofParts_relates before removed e.inserted.toList after).map String.ofList
  refine ⟨ofParts before removed e.inserted.toList after, ?_, hrelates, hrelates.length_eq, ?_⟩
  · rw [ofEdit, Edit.split?_eq_some_iff.2 h]
  · -- The extents of a closed window are one less than its terminators.
    intro hclosed
    rcases rowAfter_cases (before ++ removed) after with
      ⟨below, -, -, hne, htail, -⟩ | ⟨-, hopen⟩
    · exact ⟨terminators_append_pos htail hne, terminators_append_pos htail hne⟩
    · rw [hopen] at hclosed
      cases hclosed

/-- Removing what stands between a carriage return and a line feed joins the two, and the row above
changes as well. -/
theorem ofEdit_relates_joined :
    (⟨2, 3, ""⟩ : Edit).Cuts "a\rb\n".toList ['a', '\r'] ['b'] ['\n'] ∧
      ∃ change, ofEdit "a\rb\n" ⟨2, 3, ""⟩ = .ok change ∧
        change.Relates (splitRows "a\rb\n")
          (splitRows (String.ofList (['a', '\r'] ++ "".toList ++ ['\n']))) ∧
        (splitRows (String.ofList (['a', '\r'] ++ "".toList ++ ['\n']))).length +
          change.oldExtent = (splitRows "a\rb\n").length + change.newExtent ∧
        ((rowAfter (['a', '\r'] ++ ['b']) ['\n']).2 = true →
          0 < terminators (lead ['a', '\r'] ['b'] "".toList ['\n'] ++ ['b'] ++
            (rowAfter (['a', '\r'] ++ ['b']) ['\n']).1) ∧
          0 < terminators (lead ['a', '\r'] ['b'] "".toList ['\n'] ++ "".toList ++
            (rowAfter (['a', '\r'] ++ ['b']) ['\n']).1)) := by
  have hcuts : (⟨2, 3, ""⟩ : Edit).Cuts "a\rb\n".toList ['a', '\r'] ['b'] ['\n'] :=
    ⟨by decide, by decide, by decide⟩
  exact ⟨hcuts, ofEdit_relates "a\rb\n" ⟨2, 3, ""⟩ _ _ _ hcuts⟩

end Change

end ItemFilter
