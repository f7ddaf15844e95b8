import ItemFilter.Proofs.Change

/-!
# How far the change of an edit reaches

`Change.ofEdit_relates` says that no row outside the change of an edit is touched. Here the change
is pinned down from the other side: it is no wider than the rows at the two ends of the edit.

The row of a byte offset is the number of terminators that end at or before it (`rowAt`), counted in
the text as a whole. A cut of the text counts the same terminators, but for one that the cut falls
into (`rowAt_append`). The window of an edit starts at a cut like this (`ofParts_start`) and ends
behind the first terminator that follows the edit (`terminators_rowAfter`), so that it starts in the
row where the edit starts and ends in the row where the edit ends. There is one exception, by which
it starts a row earlier: a line feed that comes to stand behind a lone carriage return changes the
terminator of the row above.
-/

namespace ItemFilter

open Text

/-! ## The row of an offset -/

/-- The byte offsets behind the row terminators of a text that starts at a given offset. A carriage
return and a line feed that follows it are one terminator. -/
def terminatorStops (offset : Nat) : List Char → List Nat
  | [] => []
  | '\r' :: '\n' :: cs => (offset + 2) :: terminatorStops (offset + 2) cs
  | c :: cs =>
    if isLineBreak c then (offset + 1) :: terminatorStops (offset + 1) cs
    else terminatorStops (offset + c.utf8Size) cs

/-- The row of a byte offset: the number of terminators that end at or before it. -/
def rowAt (text : List Char) (offset : Nat) : Nat :=
  (terminatorStops 0 text).countP fun stop => stop ≤ offset

/-- A row starts at a byte offset: the text starts there, or a terminator ends there. -/
def StartsRow (text : List Char) (offset : Nat) : Prop :=
  offset = 0 ∨ offset ∈ terminatorStops 0 text

/-- A terminator of two characters ends behind both. -/
theorem terminatorStops_cons_pair (offset : Nat) (cs : List Char) :
    terminatorStops offset ('\r' :: '\n' :: cs) =
      (offset + 2) :: terminatorStops (offset + 2) cs := by
  rw [terminatorStops]

/-- A line break that is not the first half of a terminator is one byte and a terminator. -/
theorem terminatorStops_cons_lineBreak {c : Char} {cs : List Char} (hc : isLineBreak c = true)
    (h : Change.insideTerminator [c] cs = false) (offset : Nat) :
    terminatorStops offset (c :: cs) = (offset + 1) :: terminatorStops (offset + 1) cs := by
  rw [terminatorStops, if_pos hc]
  rintro rest rfl rfl
  simp [Change.insideTerminator] at h

/-- No terminator ends behind any other character. -/
theorem terminatorStops_cons_text {c : Char} (cs : List Char) (hc : isLineBreak c = false)
    (offset : Nat) :
    terminatorStops offset (c :: cs) = terminatorStops (offset + c.utf8Size) cs := by
  rw [terminatorStops, if_neg (by simp [hc])]
  rintro rest rfl rfl
  simp [isLineBreak] at hc

/-- A line break is one byte. -/
theorem utf8Size_of_isLineBreak {c : Char} (h : isLineBreak c = true) : c.utf8Size = 1 := by
  rcases isLineBreak_iff.1 h with rfl | rfl <;> decide

/-- A terminator of two characters is two bytes. -/
theorem byteLength_cons_pair (cs : List Char) :
    byteLength ('\r' :: '\n' :: cs) = 2 + byteLength cs := by
  have hreturn : ('\r').utf8Size = 1 := by decide
  have hfeed : ('\n').utf8Size = 1 := by decide
  simp only [byteLength]
  omega

/-- A carriage return at the end of a text is one byte. -/
theorem byteLength_return (init : List Char) :
    byteLength (init ++ ['\r']) = byteLength init + 1 := by
  have hreturn : byteLength ['\r'] = 1 := by decide
  rw [byteLength_append, hreturn]

/-- Every terminator ends behind the start of the text and not behind its end. -/
theorem mem_terminatorStops {cs : List Char} {offset stop : Nat}
    (h : stop ∈ terminatorStops offset cs) :
    offset < stop ∧ stop ≤ offset + byteLength cs := by
  induction cs using rowsInduction generalizing offset with
  | nil => cases h
  | pair cs ih =>
    rw [terminatorStops_cons_pair] at h
    rw [byteLength_cons_pair]
    rcases List.mem_cons.1 h with rfl | h
    · omega
    · have hrest := ih h
      omega
  | lineBreak c cs hc hin ih =>
    have hsize := utf8Size_of_isLineBreak hc
    rw [terminatorStops_cons_lineBreak hc hin] at h
    rw [byteLength]
    rcases List.mem_cons.1 h with rfl | h
    · omega
    · have hrest := ih h
      omega
  | text c cs hc ih =>
    rw [terminatorStops_cons_text cs hc] at h
    rw [byteLength]
    have hrest := ih h
    omega

/-- There is one offset for each terminator. -/
theorem length_terminatorStops (offset : Nat) (cs : List Char) :
    (terminatorStops offset cs).length = terminators cs := by
  induction cs using rowsInduction generalizing offset with
  | nil => rfl
  | pair cs ih => rw [terminatorStops_cons_pair, terminators_cons_pair, List.length_cons, ih]
  | lineBreak c cs hc hin ih =>
    rw [terminatorStops_cons_lineBreak hc hin, terminators_cons_lineBreak hc hin,
      List.length_cons, ih]
  | text c cs hc ih => rw [terminatorStops_cons_text cs hc, terminators_cons_text hc, ih]

/-- Across a clean cut the terminators of the second text follow those of the first. -/
theorem terminatorStops_append {u v : List Char} (h : Change.insideTerminator u v = false)
    (offset : Nat) :
    terminatorStops offset (u ++ v) =
      terminatorStops offset u ++ terminatorStops (offset + byteLength u) v := by
  induction u using rowsInduction generalizing offset with
  | nil => rfl
  | pair u ih =>
    have hu := insideTerminator_of_cons (insideTerminator_of_cons h)
    have hbytes : offset + byteLength ('\r' :: '\n' :: u) = offset + 2 + byteLength u := by
      rw [byteLength_cons_pair]
      omega
    rw [List.cons_append, List.cons_append, terminatorStops_cons_pair, terminatorStops_cons_pair,
      ih hu, hbytes]
    rfl
  | lineBreak c u hc hin ih =>
    have hcut := insideTerminator_singleton_append hin h
    have hbytes : offset + byteLength (c :: u) = offset + 1 + byteLength u := by
      rw [byteLength, utf8Size_of_isLineBreak hc]
      omega
    rw [List.cons_append, terminatorStops_cons_lineBreak hc hcut,
      terminatorStops_cons_lineBreak hc hin, ih (insideTerminator_of_cons h), hbytes]
    rfl
  | text c u hc ih =>
    have hbytes : offset + byteLength (c :: u) = offset + c.utf8Size + byteLength u := by
      rw [byteLength]
      omega
    rw [List.cons_append, terminatorStops_cons_text _ hc, terminatorStops_cons_text _ hc,
      ih (insideTerminator_of_cons h), hbytes]

/-- At a clean cut, all terminators of the first text and none of the second count. -/
theorem rowAt_of_clean {u v : List Char} (h : Change.insideTerminator u v = false) :
    rowAt (u ++ v) (byteLength u) = terminators u := by
  have hfirst : (terminatorStops 0 u).countP (fun stop => stop ≤ byteLength u) =
      (terminatorStops 0 u).length := by
    rw [List.countP_eq_length]
    intro stop hstop
    have hle := (mem_terminatorStops hstop).2
    rw [Nat.zero_add] at hle
    exact decide_eq_true hle
  have hsecond : (terminatorStops (0 + byteLength u) v).countP
      (fun stop => stop ≤ byteLength u) = 0 := by
    rw [List.countP_eq_zero]
    intro stop hstop hle
    have hlt := (mem_terminatorStops hstop).1
    have hle' := of_decide_eq_true hle
    omega
  rw [rowAt, terminatorStops_append h, List.countP_append, hfirst, hsecond, length_terminatorStops,
    Nat.add_zero]

/-- Between a carriage return and its line feed, the terminators in front of both count. -/
theorem rowAt_of_inside (init rest : List Char) :
    rowAt (init ++ ['\r'] ++ '\n' :: rest) (byteLength (init ++ ['\r'])) = terminators init ∧
      byteLength (init ++ ['\r']) ∉ terminatorStops 0 (init ++ ['\r'] ++ '\n' :: rest) := by
  have htext : init ++ ['\r'] ++ '\n' :: rest = init ++ '\r' :: '\n' :: rest := by simp
  have hclean : Change.insideTerminator init ('\r' :: '\n' :: rest) = false :=
    Change.insideTerminator_of_head? (by simp)
  have hbytes := byteLength_return init
  have hstops := terminatorStops_append hclean 0
  rw [terminatorStops_cons_pair, Nat.zero_add] at hstops
  -- The terminators of the first part end before the cut, all others behind it.
  have hbefore (stop : Nat) (h : stop ∈ terminatorStops 0 init) : stop ≤ byteLength init := by
    have hle := (mem_terminatorStops h).2
    omega
  have hbehind (stop : Nat) (h : stop ∈ (byteLength init + 2) ::
      terminatorStops (byteLength init + 2) rest) : byteLength init + 1 < stop := by
    rcases List.mem_cons.1 h with rfl | h
    · omega
    · have hlt := (mem_terminatorStops h).1
      omega
  rw [htext, hbytes]
  constructor
  · have hfirst : (terminatorStops 0 init).countP (fun stop => stop ≤ byteLength init + 1) =
        (terminatorStops 0 init).length := by
      rw [List.countP_eq_length]
      intro stop hstop
      have hle := hbefore stop hstop
      exact decide_eq_true (by omega)
    have hsecond : ((byteLength init + 2) :: terminatorStops (byteLength init + 2) rest).countP
        (fun stop => stop ≤ byteLength init + 1) = 0 := by
      rw [List.countP_eq_zero]
      intro stop hstop hle
      have hlt := hbehind stop hstop
      have hle' := of_decide_eq_true hle
      omega
    rw [rowAt, hstops, List.countP_append, hfirst, hsecond, length_terminatorStops, Nat.add_zero]
  · rw [hstops, List.mem_append]
    rintro (hmem | hmem)
    · have hle := hbefore _ hmem
      omega
    · have hlt := hbehind _ hmem
      omega

/-- A carriage return at the end of a text is a terminator. -/
theorem terminators_return (init : List Char) :
    terminators (init ++ ['\r']) = terminators init + 1 := by
  rw [terminators_append (Change.insideTerminator_of_head? (by simp))]
  rfl

/-- The terminators in front of a cut are those that end at or before it, and the one that the cut
falls into. -/
theorem rowAt_append (u v : List Char) :
    rowAt (u ++ v) (byteLength u) + (if Change.insideTerminator u v then 1 else 0) =
      terminators u := by
  by_cases h : Change.insideTerminator u v = true
  · obtain ⟨hlast, hhead⟩ := insideTerminator_iff.1 h
    obtain ⟨init, rfl⟩ := List.getLast?_eq_some_iff.1 hlast
    obtain ⟨rest, rfl⟩ := List.head?_eq_some_iff.1 hhead
    rw [if_pos h, (rowAt_of_inside init rest).1, terminators_return]
  · rw [if_neg h, rowAt_of_clean (Bool.eq_false_of_not_eq_true h), Nat.add_zero]

/-- Behind a carriage return a row starts unless its line feed follows. -/
theorem startsRow_iff {u v : List Char} (hlast : u.getLast? = some '\r') :
    StartsRow (u ++ v) (byteLength u) ↔ Change.insideTerminator u v = false := by
  obtain ⟨init, rfl⟩ := List.getLast?_eq_some_iff.1 hlast
  have hbytes := byteLength_return init
  constructor
  · rintro (hzero | hmem)
    · omega
    · by_contra hin
      obtain ⟨-, hhead⟩ := insideTerminator_iff.1 (Bool.eq_true_of_not_eq_false hin)
      obtain ⟨rest, rfl⟩ := List.head?_eq_some_iff.1 hhead
      exact (rowAt_of_inside init rest).2 hmem
  · intro hclean
    have hreturn : terminatorStops (0 + byteLength init) ['\r'] = [0 + byteLength init + 1] := rfl
    right
    rw [terminatorStops_append hclean,
      terminatorStops_append (Change.insideTerminator_of_head? (by simp)), hreturn, hbytes]
    simp

namespace Change

/-! ## Where the window of an edit starts and ends -/

/-- A text without line breaks has no terminators. -/
theorem terminators_of_text {cs : List Char} (h : ∀ c ∈ cs, isLineBreak c = false) :
    terminators cs = 0 := by
  induction cs with
  | nil => rfl
  | cons c cs ih =>
    obtain ⟨hc, hcs⟩ := List.forall_mem_cons.1 h
    rw [terminators_cons_text hc, ih hcs]

/-- A text without line breaks in front of another one adds no terminators. -/
theorem terminators_text_append {u : List Char} (h : ∀ c ∈ u, isLineBreak c = false)
    (v : List Char) : terminators (u ++ v) = terminators v := by
  have hclean : insideTerminator u v = false := by
    rw [Bool.eq_false_iff, Ne, insideTerminator_iff]
    rintro ⟨hlast, -⟩
    have hreturn := h '\r' (List.mem_of_getLast? hlast)
    simp [isLineBreak] at hreturn
  rw [terminators_append hclean, terminators_of_text h, Nat.zero_add]

/-- Outside of a terminator, what follows a place up to the end of its row has one terminator if the
row has one. -/
theorem terminators_rowAfter_of_clean {u after : List Char}
    (h : insideTerminator u after = false) :
    terminators (rowAfter u after).1 = if (rowAfter u after).2 then 1 else 0 := by
  obtain ⟨rest, tail, rfl, hrest, htail⟩ := exists_run (fun c => !isLineBreak c) after
  have htext : ∀ c ∈ rest, isLineBreak c = false := fun c hc => by simpa using hrest c hc
  unfold rowAfter
  rw [if_neg (by simp [h]), takeWhile_append_of_stop hrest htail]
  simp only [List.drop_left]
  split
  · rw [terminators_text_append htext]
    rfl
  · rename_i c below hpair
    have hc : isLineBreak c = true := by simpa using stops_cons.1 htail
    rw [terminators_text_append htext, terminators_cons_lineBreak hc (by simp [insideTerminator])]
    rfl
  · exact terminators_of_text htext

/-- A text that ends in a clean cut does so in front of the beginning of what follows. -/
theorem insideTerminator_rowAfter {u v w after : List Char}
    (h : insideTerminator u (v ++ after) = false) :
    insideTerminator u (v ++ (rowAfter w after).1) = false := by
  rcases rowAfter_cases w after with ⟨below, hafter, -, hne, -, -⟩ | ⟨hafter, -⟩
  · unfold insideTerminator at h ⊢
    generalize (rowAfter w after).1 = tail at hafter hne ⊢
    subst hafter
    rwa [← List.append_assoc, List.head?_append_of_ne_nil _ (by simp [hne])] at h
  · rwa [hafter]

/-- Up to the end of the row in which an edit ends there is one terminator more than end at or
before the edit's end, if that row has one. -/
theorem terminators_rowAfter (u after : List Char) :
    terminators (u ++ (rowAfter u after).1) =
      rowAt (u ++ after) (byteLength u) + if (rowAfter u after).2 then 1 else 0 := by
  have hrow := rowAt_append u after
  by_cases h : insideTerminator u after = true
  · -- The row ends behind the line feed that the carriage return was followed by.
    obtain ⟨hlast, hhead⟩ := insideTerminator_iff.1 h
    obtain ⟨init, rfl⟩ := List.getLast?_eq_some_iff.1 hlast
    have htail : rowAfter (init ++ ['\r']) after = (['\n'], true) := if_pos h
    have hpair : terminators (init ++ ['\r'] ++ ['\n']) = terminators init + 1 := by
      rw [List.append_assoc, terminators_append (insideTerminator_of_head? (by simp))]
      rfl
    rw [if_pos h, terminators_return] at hrow
    rw [htail, hpair, if_pos rfl]
    omega
  · have hclean := Bool.eq_false_of_not_eq_true h
    have hcut : insideTerminator u (rowAfter u after).1 = false :=
      insideTerminator_rowAfter (v := []) hclean
    rw [if_neg h, Nat.add_zero] at hrow
    rw [terminators_append hcut, terminators_rowAfter_of_clean hclean, hrow]

section Window

variable (before removed inserted after : List Char)

/-- What an edit changes starts at a row of the text: the part above it ends a row, and no
terminator lies across the cut, before and after the edit. -/
theorem ofParts_above :
    ∃ above, before = above ++ lead before removed inserted after ∧
      (ofParts before removed inserted after).startRow = terminators above ∧
      insideTerminator above (lead before removed inserted after ++ (removed ++ after)) =
        false := by
  obtain ⟨above, hbefore, -, hclean, -⟩ := exists_above_lead before removed inserted after
  refine ⟨above, hbefore, ?_, hclean⟩
  show terminators (before.take (before.length - _)) = _
  generalize lead before removed inserted after = lead at hbefore
  subst hbefore
  rw [List.length_append, Nat.add_sub_cancel, List.take_left]

/-- The change ends in the row in which the edit ends. -/
theorem ofParts_stop :
    (ofParts before removed inserted after).startRow +
        (ofParts before removed inserted after).oldExtent =
      rowAt (before ++ removed ++ after) (byteLength (before ++ removed)) := by
  obtain ⟨above, hbefore, hstart, hclean⟩ := ofParts_above before removed inserted after
  have hold : (ofParts before removed inserted after).oldExtent =
      terminators (lead before removed inserted after ++ removed ++
        (rowAfter (before ++ removed) after).1) -
        if (rowAfter (before ++ removed) after).2 then 1 else 0 := rfl
  -- The terminators of the window, and with it those of all that stands above its end.
  have hwindow : terminators (above ++ (lead before removed inserted after ++ removed ++
        (rowAfter (before ++ removed) after).1)) =
      terminators above + terminators (lead before removed inserted after ++ removed ++
        (rowAfter (before ++ removed) after).1) := by
    apply terminators_append
    rw [← List.append_assoc] at hclean
    exact insideTerminator_rowAfter hclean
  have htext : above ++ (lead before removed inserted after ++ removed ++
        (rowAfter (before ++ removed) after).1) =
      before ++ removed ++ (rowAfter (before ++ removed) after).1 := by
    rw [← List.append_assoc, ← List.append_assoc, ← hbefore]
  rw [htext, terminators_rowAfter] at hwindow
  have hpos : (if (rowAfter (before ++ removed) after).2 then 1 else 0) ≤
      terminators (lead before removed inserted after ++ removed ++
        (rowAfter (before ++ removed) after).1) := by
    rcases rowAfter_cases (before ++ removed) after with
      ⟨below, -, hclosed, hne, htail, -⟩ | ⟨-, hopen⟩
    · rw [if_pos hclosed]
      exact terminators_append_pos htail hne
    · rw [if_neg (by simp [hopen])]
      exact Nat.zero_le _
  rw [hstart, hold]
  omega

/-- The part of the changed rows before the edit has a terminator exactly when it reaches back over
a carriage return. -/
theorem terminators_lead :
    terminators (lead before removed inserted after) =
      if insideTerminator before (removed ++ after) || insideTerminator before (inserted ++ after)
      then 1 else 0 := by
  rw [lead_eq]
  split_ifs
  · obtain ⟨-, -, -, htext⟩ := exists_above_lastRow before.dropLast
    rw [terminators_text_append htext]
    rfl
  · obtain ⟨-, -, -, htext⟩ := exists_above_lastRow before
    exact terminators_of_text htext

/-- The change starts in the row in which the edit starts, or in the row above if a line feed comes
to stand behind a lone carriage return. -/
theorem ofParts_start :
    (ofParts before removed inserted after).startRow +
        (if !insideTerminator before (removed ++ after) &&
          insideTerminator before (inserted ++ after) then 1 else 0) =
      rowAt (before ++ removed ++ after) (byteLength before) := by
  obtain ⟨above, hbefore, hstart, hclean⟩ := ofParts_above before removed inserted after
  have hrow := rowAt_append before (removed ++ after)
  have hlead := terminators_lead before removed inserted after
  have hparts : terminators before =
      terminators above + terminators (lead before removed inserted after) := by
    generalize lead before removed inserted after = lead at hbefore hclean
    subst hbefore
    cases lead with
    | nil => simp [terminators]
    | cons c lead => exact terminators_append hclean
  rw [List.append_assoc, hstart]
  rw [hparts, hlead] at hrow
  -- The terminator that the edit starts in, if any, counts in front of the edit but not up to it.
  generalize insideTerminator before (removed ++ after) = old at hrow ⊢
  generalize insideTerminator before (inserted ++ after) = new at hrow ⊢
  cases old <;> cases new <;> simp at hrow ⊢ <;> omega

end Window

/-! ## Edits inside a row -/

/-- The terminators of two texts add up across any cut, but for the one that the cut falls into. -/
theorem terminators_append_cut (u v : List Char) :
    terminators (u ++ v) + (if insideTerminator u v then 1 else 0) =
      terminators u + terminators v := by
  by_cases h : insideTerminator u v = true
  · obtain ⟨hlast, hhead⟩ := insideTerminator_iff.1 h
    obtain ⟨init, rfl⟩ := List.getLast?_eq_some_iff.1 hlast
    obtain ⟨rest, rfl⟩ := List.head?_eq_some_iff.1 hhead
    have htext : init ++ ['\r'] ++ '\n' :: rest = init ++ '\r' :: '\n' :: rest := by simp
    have hfeed : terminators ('\n' :: rest) = terminators rest + 1 := by rw [terminators]
    rw [if_pos h, htext, terminators_append (insideTerminator_of_head? (by simp)),
      terminators_cons_pair, terminators_return, hfeed]
    omega
  · rw [if_neg h, terminators_append (Bool.eq_false_of_not_eq_true h), Nat.add_zero]

section Text

variable {before removed inserted after : List Char}

/-- Text without line breaks in a cut keeps the two sides from being one terminator. -/
theorem insideTerminator_text_append {text : List Char}
    (htext : ∀ c ∈ text, isLineBreak c = false) :
    insideTerminator before (text ++ after) = true ↔
      text = [] ∧ insideTerminator before after = true := by
  cases text with
  | nil => simp
  | cons c text =>
    refine iff_of_false (fun hin => ?_) (by simp)
    obtain rfl : c = '\n' := by simpa using (insideTerminator_iff.1 hin).2
    have hfeed := htext '\n' List.mem_cons_self
    simp [isLineBreak] at hfeed

/-- Removed text without line breaks starts and ends in the same row. -/
theorem rowAt_text (hremoved : ∀ c ∈ removed, isLineBreak c = false) :
    rowAt (before ++ removed ++ after) (byteLength (before ++ removed)) =
      rowAt (before ++ removed ++ after) (byteLength before) := by
  cases removed with
  | nil => rw [List.append_nil]
  | cons c removed =>
    have hstart := rowAt_append before (c :: removed ++ after)
    have hstop := rowAt_append (before ++ c :: removed) after
    have hclean : insideTerminator before (c :: removed ++ after) = false := by
      rw [Bool.eq_false_iff, Ne, insideTerminator_text_append hremoved]
      exact fun h => List.cons_ne_nil _ _ h.1
    have hclean' : insideTerminator (before ++ c :: removed) after = false := by
      rw [insideTerminator_append (List.cons_ne_nil _ _), Bool.eq_false_iff, Ne,
        insideTerminator_iff]
      rintro ⟨hlast, -⟩
      have hreturn := hremoved '\r' (List.mem_of_getLast? hlast)
      simp [isLineBreak] at hreturn
    have hsame : terminators (before ++ c :: removed) = terminators before := by
      have hcut : insideTerminator before (c :: removed) = false := hclean
      rw [terminators_append hcut, terminators_of_text hremoved, Nat.add_zero]
    rw [hclean, if_neg (by simp), Nat.add_zero, ← List.append_assoc] at hstart
    rw [hclean', if_neg (by simp), Nat.add_zero] at hstop
    rw [hstop, hstart, hsame]

/-- Replacing text without line breaks by such text changes one row, unless a terminator is put
together or taken apart by it. -/
theorem ofParts_text_iff (hremoved : ∀ c ∈ removed, isLineBreak c = false)
    (hinserted : ∀ c ∈ inserted, isLineBreak c = false) :
    ofParts before removed inserted after =
        ⟨rowAt (before ++ removed ++ after) (byteLength before), 0, 0⟩ ↔
      insideTerminator before (removed ++ after) =
        insideTerminator before (inserted ++ after) := by
  have hstart := ofParts_start before removed inserted after
  have hstop := ofParts_stop before removed inserted after
  rw [rowAt_text hremoved] at hstop
  -- The old and the new text have the same terminators, but for those that the edit starts in.
  have hlength := (ofParts_relates before removed inserted after).length_eq
  rw [length_rows, length_rows, List.append_assoc, List.append_assoc] at hlength
  have hold := terminators_append_cut before (removed ++ after)
  have hnew := terminators_append_cut before (inserted ++ after)
  rw [terminators_text_append hremoved] at hold
  rw [terminators_text_append hinserted] at hnew
  generalize rowAt (before ++ removed ++ after) (byteLength before) = row at hstart hstop ⊢
  generalize ofParts before removed inserted after = change at hstart hstop hlength ⊢
  generalize insideTerminator before (removed ++ after) = old at hstart hold ⊢
  generalize insideTerminator before (inserted ++ after) = new at hstart hnew ⊢
  obtain ⟨startRow, oldExtent, newExtent⟩ := change
  dsimp only at hstart hstop hlength
  rw [Change.mk.injEq]
  cases old <;> cases new <;> simp at hstart hold hnew ⊢ <;> omega

end Text

/-- An edit puts a line feed behind a lone carriage return: the edit starts a row, the byte before
it is a carriage return, and the edited text has a line feed where the edit starts. -/
structure JoinsAbove (text : List Char) (e : Edit) (before after : List Char) : Prop where
  startsRow : StartsRow text e.start
  return_before : before.getLast? = some '\r'
  feed_behind : e.inserted.toList.head? = some '\n' ∨
    e.inserted.toList = [] ∧ after.head? = some '\n'

/-- All text between a carriage return and a line feed is removed, or text is put between a carriage
return and its line feed. -/
inductive Rejoins (before removed inserted after : List Char) : Prop
  | closed : before.getLast? = some '\r' → after.head? = some '\n' → removed ≠ [] →
    inserted = [] → Rejoins before removed inserted after
  | opened : before.getLast? = some '\r' → after.head? = some '\n' → removed = [] →
    inserted ≠ [] → Rejoins before removed inserted after

/-- A line feed is put behind a lone carriage return exactly if the two make a terminator after the
edit and did not before. -/
theorem joinsAbove_iff {text before removed after : List Char} {e : Edit}
    (h : e.Cuts text before removed after) :
    JoinsAbove text e before after ↔
      (!insideTerminator before (removed ++ after) &&
        insideTerminator before (e.inserted.toList ++ after)) = true := by
  have hfeed : (e.inserted.toList ++ after).head? = some '\n' ↔
      e.inserted.toList.head? = some '\n' ∨
        e.inserted.toList = [] ∧ after.head? = some '\n' := by
    cases e.inserted.toList <;> simp
  have hrow (hlast : before.getLast? = some '\r') :
      StartsRow text e.start ↔ insideTerminator before (removed ++ after) = false := by
    rw [h.text_eq, ← h.start_eq, List.append_assoc]
    exact startsRow_iff hlast
  rw [Bool.and_eq_true, Bool.not_eq_true', insideTerminator_iff, hfeed]
  constructor
  · rintro ⟨hstarts, hlast, hbehind⟩
    exact ⟨(hrow hlast).1 hstarts, hlast, hbehind⟩
  · rintro ⟨hclean, hlast, hbehind⟩
    exact ⟨(hrow hlast).2 hclean, hlast, hbehind⟩

/-- Text without line breaks puts a terminator together or takes it apart exactly if the edit starts
in a terminator either before or after it. -/
theorem rejoins_iff {before removed inserted after : List Char}
    (hremoved : ∀ c ∈ removed, isLineBreak c = false)
    (hinserted : ∀ c ∈ inserted, isLineBreak c = false) :
    Rejoins before removed inserted after ↔
      ¬insideTerminator before (removed ++ after) =
        insideTerminator before (inserted ++ after) := by
  rw [Bool.eq_iff_iff, insideTerminator_text_append hremoved,
    insideTerminator_text_append hinserted, insideTerminator_iff]
  constructor
  · rintro (⟨hlast, hhead, hne, hnil⟩ | ⟨hlast, hhead, hnil, hne⟩)
    · exact fun h => hne (h.2 ⟨hnil, hlast, hhead⟩).1
    · exact fun h => hne (h.1 ⟨hnil, hlast, hhead⟩).1
  · intro h
    by_cases hpair : before.getLast? = some '\r' ∧ after.head? = some '\n'
    · simp only [hpair, and_self, and_true] at h
      by_cases hnil : removed = []
      · exact .opened hpair.1 hpair.2 hnil fun hnil' => h (iff_of_true hnil hnil')
      · refine .closed hpair.1 hpair.2 hnil ?_
        by_contra hne
        exact h (iff_of_false hnil hne)
    · exact absurd (iff_of_false (fun h => hpair h.2) fun h => hpair h.2) h

/-- The change of an edit is as narrow as the rows allow. It ends in the row in which the edit ends,
and starts in the row in which the edit starts, or in the row above exactly if a line feed is put
behind the lone carriage return that ends it. So if neither the removed nor the inserted text holds
a line break, the change is the row of the edit alone, unless a terminator is put together or taken
apart. -/
theorem ofEdit_local (text : String) (e : Edit) (before removed after : List Char)
    (h : e.Cuts text.toList before removed after) :
    ∃ change, ofEdit text e = .ok change ∧
      change.startRow + change.oldExtent = rowAt text.toList e.stop ∧
      (JoinsAbove text.toList e before after →
        change.startRow + 1 = rowAt text.toList e.start) ∧
      (¬ JoinsAbove text.toList e before after →
        change.startRow = rowAt text.toList e.start) ∧
      ((∀ c ∈ removed ++ e.inserted.toList, isLineBreak c = false) →
        (change = ⟨rowAt text.toList e.start, 0, 0⟩ ↔
          ¬ Rejoins before removed e.inserted.toList after)) := by
  have hstart := ofParts_start before removed e.inserted.toList after
  have hstop := ofParts_stop before removed e.inserted.toList after
  refine ⟨ofParts before removed e.inserted.toList after, ?_, ?_, ?_, ?_, ?_⟩
  · rw [ofEdit, Edit.split?_eq_some_iff.2 h]
  · rw [h.text_eq, ← h.stop_eq, hstop]
  · intro hjoins
    rw [if_pos ((joinsAbove_iff h).1 hjoins)] at hstart
    rw [h.text_eq, ← h.start_eq, hstart]
  · intro hjoins
    rw [if_neg fun hjoined => hjoins ((joinsAbove_iff h).2 hjoined), Nat.add_zero] at hstart
    rw [h.text_eq, ← h.start_eq, hstart]
  · intro htext
    obtain ⟨hremoved, hinserted⟩ := List.forall_mem_append.1 htext
    rw [h.text_eq, ← h.start_eq, ofParts_text_iff hremoved hinserted,
      rejoins_iff hremoved hinserted, not_not]

/-- Replacing the `b` behind a lone carriage return touches its own row only; removing it joins the
carriage return with the line feed that followed, and the row above changes as well. -/
theorem ofEdit_local_lone :
    (⟨2, 3, "x"⟩ : Edit).Cuts "a\rb\n".toList ['a', '\r'] ['b'] ['\n'] ∧
      (⟨2, 3, ""⟩ : Edit).Cuts "a\rb\n".toList ['a', '\r'] ['b'] ['\n'] ∧
      ofEdit "a\rb\n" ⟨2, 3, "x"⟩ = .ok ⟨rowAt "a\rb\n".toList 2, 0, 0⟩ ∧
      ∃ change, ofEdit "a\rb\n" ⟨2, 3, ""⟩ = .ok change ∧
        change.startRow + 1 = rowAt "a\rb\n".toList 2 ∧
        change.startRow + change.oldExtent = rowAt "a\rb\n".toList 3 := by
  have hreplace : (⟨2, 3, "x"⟩ : Edit).Cuts "a\rb\n".toList ['a', '\r'] ['b'] ['\n'] :=
    ⟨by decide, by decide, by decide⟩
  have hremove : (⟨2, 3, ""⟩ : Edit).Cuts "a\rb\n".toList ['a', '\r'] ['b'] ['\n'] :=
    ⟨by decide, by decide, by decide⟩
  have hjoins : JoinsAbove "a\rb\n".toList ⟨2, 3, ""⟩ ['a', '\r'] ['\n'] :=
    ⟨.inr (by decide), rfl, .inr ⟨rfl, rfl⟩⟩
  have hapart : ¬ Rejoins ['a', '\r'] ['b'] "x".toList ['\n'] := by
    rintro (⟨-, -, -, hnil⟩ | ⟨-, -, hnil, -⟩) <;> exact absurd hnil (by decide)
  obtain ⟨change, hchange, -, -, -, hrow⟩ :=
    ofEdit_local "a\rb\n" ⟨2, 3, "x"⟩ _ _ _ hreplace
  obtain ⟨change', hchange', hstop, hstart, -, -⟩ :=
    ofEdit_local "a\rb\n" ⟨2, 3, ""⟩ _ _ _ hremove
  rw [(hrow (by simp [isLineBreak])).2 hapart] at hchange
  exact ⟨hreplace, hremove, hchange, change', hchange', hstart hjoins, hstop⟩

end Change

end ItemFilter
