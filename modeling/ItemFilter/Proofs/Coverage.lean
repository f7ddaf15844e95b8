import ItemFilter.Proofs.Placement

/-!
# Nothing of a row is lost

What a line stores is what the row says, and a line without errors says all of it.

`Line.Traced` relates a line to the text of its row: every token is spelled in its range, and the
ranges of the tokens are among tiles of the row. If the row is right, then the tokens and the
diagnostics are all of the tiles, so that they lie apart and leave out nothing but blanks
(`Tiling.pairwise_apart`, `Tiling.exists_covering`). `Line.traced_read` finds this for every row, by
the cases in which a row is read: the keyword is the first tile, and what follows it was traced as a
header or as a rule.
-/

namespace ItemFilter

open Text Lexeme

/-! ## Tilings -/

/-- Ranges are the tiles of a row in some order, and behind the last tile there are only blanks. -/
def Tiling (row : Nat) (text : List Char) (ranges : List Range) : Prop :=
  ∃ tiles stop, Tiled row text 0 tiles stop ∧ BlankBetween text stop text.length ∧
    ranges.Perm tiles

/-- Ranges that are among tiles lie apart. -/
theorem Tiled.pairwise_apart {row column last : Nat} {text : List Char} {tiles ranges : List Range}
    (h : Tiled row text column tiles last) (hranges : ranges.Subperm tiles) :
    ranges.Pairwise Range.Apart := by
  obtain ⟨sorted, hperm, hsublist⟩ := hranges
  have hapart : tiles.Pairwise Range.Apart := h.pairwise.imp Or.inl
  exact (hperm.pairwise_iff Range.Apart.symm).1 (hapart.sublist hsublist)

/-- The ranges of a tiling lie apart. -/
theorem Tiling.pairwise_apart {row : Nat} {text : List Char} {ranges : List Range}
    (h : Tiling row text ranges) : ranges.Pairwise Range.Apart := by
  obtain ⟨tiles, stop, htiled, -, hperm⟩ := h
  exact htiled.pairwise_apart hperm.subperm

/-- Every character that is not blank stands in one of the ranges of a tiling. -/
theorem Tiling.exists_covering {row : Nat} {text : List Char} {ranges : List Range}
    (h : Tiling row text ranges) {i : Nat} {c : Char} (hget : text[i]? = some c)
    (hvisible : isBlank c = false) : ∃ r ∈ ranges, r.start.column ≤ i ∧ i < r.stop.column := by
  obtain ⟨tiles, stop, htiled, hblank, hperm⟩ := h
  have hlength : i < text.length := (List.getElem?_eq_some_iff.1 hget).1
  have hstop : i < stop := by
    by_contra hle
    rw [hblank i c (Nat.le_of_not_lt hle) hlength hget] at hvisible
    cases hvisible
  obtain ⟨r, hr, hcovers⟩ := htiled.exists_covering (Nat.zero_le i) hstop hget hvisible
  exact ⟨r, hperm.mem_iff.2 hr, hcovers⟩

/-! ## Traced lines -/

/-- The ranges of all diagnostics. -/
def Messages.ranges (m : Messages) : List Range := m.toList.map fun x => x.2.range

/-- Every token of a line is spelled in its range. -/
def LineKind.Spelled (text : List Char) : LineKind → Prop
  | empty => True
  | comment t => t.Spelled text SpellsComment
  | block header =>
    header.keyword.Spelled text (fun cs visibility => cs = visibility.name.toList) ∧
      ∀ t ∈ header.comment, t.Spelled text SpellsComment
  | rule r =>
    r.name.Spelled text (fun cs name => cs = name.name.toList) ∧
      (∀ op ∈ r.operator, op.Spelled text SpellsOperator) ∧ r.argument.Spelled text ∧
      ∀ t ∈ r.comment, t.Spelled text SpellsComment
  | unknown word => ∀ t ∈ word, t.Spelled text SpellsWord

namespace Line

/-- A line is traced in the text of its row. -/
structure Traced (row : Nat) (text : List Char) (line : Line) : Prop where
  /-- The line is the whole row. -/
  range_eq : line.range = .onRow row 0 text.length
  /-- The line is invalid when there is an error. -/
  invalid_eq : line.invalid = line.messages.hasErrors
  /-- All diagnostics lie on the row. -/
  within : line.messages.Within row text.length
  /-- The tokens are spelled where they stand. -/
  spelled : line.kind.Spelled text
  /-- The tokens are among tiles of the row. -/
  tiled : ∃ tiles stop, Tiled row text 0 tiles stop ∧ line.kind.ranges.Subperm tiles
  /-- The tokens and the diagnostics are all of the row, unless there is an error or the row starts
  with no keyword. -/
  tiling : line.invalid = false → (∀ word, line.kind ≠ .unknown word) →
    Tiling row text (line.kind.ranges ++ line.messages.ranges)

/-- The tokens of a traced line lie on its row, and each holds a character. -/
theorem Traced.mem {row : Nat} {text : List Char} {line : Line} (h : line.Traced row text)
    {r : Range} (hr : r ∈ line.kind.ranges) :
    r.Within row text.length ∧ r.start.column < r.stop.column := by
  obtain ⟨tiles, stop, htiled, hsubperm⟩ := h.tiled
  obtain ⟨hwithin, -, hlt, -⟩ := htiled.mem (hsubperm.subset hr)
  exact ⟨hwithin, hlt⟩

/-- The tokens of a traced line lie apart. -/
theorem Traced.pairwise_apart {row : Nat} {text : List Char} {line : Line}
    (h : line.Traced row text) : line.kind.ranges.Pairwise Range.Apart := by
  obtain ⟨tiles, stop, htiled, hsubperm⟩ := h.tiled
  exact htiled.pairwise_apart hsubperm

end Line

/-! ## Headers -/

/-- Behind the keyword of a header come a comment, or text that is reported, or neither of them, and
then only blanks. -/
theorem Draft.tiled_header (c : Cursor) (keyword : String) (file : Option String) :
    (∃ stop,
      Tiled c.row c.text c.column
        (((start c keyword file).header.comment.map Token.range).toList ++
          (start c keyword file).header.messages.ranges) stop ∧
      BlankBetween c.text stop c.text.length) ∧
    ∀ t ∈ (start c keyword file).header.comment, t.Spelled c.text SpellsComment := by
  unfold header close
  have hcursor : (start c keyword file).cursor = c := rfl
  rw [hcursor]
  cases hcomment : c.comment with
  | some found =>
    obtain ⟨comment, last⟩ := found
    obtain ⟨hmoves, hblank, hspells⟩ := Cursor.comment_reaches hcomment
    refine ⟨⟨last.column, hmoves.tiled, hblank⟩, ?_⟩
    rintro t ⟨⟩
    exact hspells
  | none =>
    dsimp only
    split_ifs with hempty
    · exact ⟨⟨c.column, .nil _, Cursor.blankBetween_of_isEmpty hempty⟩, nofun⟩
    · obtain ⟨htiled, hblank⟩ := Cursor.tiled_restOfText (Bool.eq_false_of_not_eq_true hempty)
      exact ⟨⟨_, htiled, hblank⟩, nofun⟩

namespace Line

variable {row : Nat} {text : List Char} {c : Cursor} {word : Token String}

/-! ## Rows -/

/-- A row that starts with a block header is traced. -/
theorem traced_recognised_block (hmoves : Cursor.Reaches ⟨row, text, 0⟩ [word.range] c)
    {visibility : Visibility} (hname : word.range.cut text = visibility.name.toList)
    (file : Option String) (vocabulary : Vocabulary) :
    (recognised c word (.block visibility) file vocabulary).Traced row text := by
  obtain ⟨⟨stop, hrest, hblank⟩, hcomment⟩ := Draft.tiled_header c word.value file
  obtain ⟨rfl, rfl⟩ : c.row = row ∧ c.text = text := ⟨hmoves.row_eq, hmoves.text_eq⟩
  have htiled := hmoves.tiled.append hrest
  refine ⟨rfl, rfl, fun x hx => ?_, ⟨hname, hcomment⟩, ⟨_, stop, htiled, ?_⟩, fun _ _ => ?_⟩
  · -- What is reported is a tile.
    have hmem := List.mem_map_of_mem (f := fun x : Severity × Diagnostic => x.2.range) hx
    exact (hrest.mem (List.mem_append_right _ hmem)).1
  · exact ((List.sublist_append_left _ _).cons_cons _).subperm
  · exact ⟨_, stop, htiled, hblank, .refl _⟩

/-- The ranges of a rule, in the order in which its parts stand on the row. -/
theorem perm_ranges_rule (r : Rule) :
    (LineKind.rule r).ranges.Perm (r.name.range ::
      (Draft.operatorRanges r.operator ++ r.argument.ranges ++
        (r.comment.map Token.range).toList)) := by
  refine List.perm_middle.trans (.cons _ ?_)
  rw [List.append_assoc, List.append_assoc]
  exact List.perm_append_comm.append_left _

/-- A row that starts with the keyword of a rule is traced. -/
theorem traced_recognised_rule (hmoves : Cursor.Reaches ⟨row, text, 0⟩ [word.range] c)
    {name : RuleName} (hname : word.range.cut text = name.name.toList)
    (file : Option String) (vocabulary : Vocabulary) :
    (recognised c word (.rule name) file vocabulary).Traced row text := by
  obtain ⟨rfl, rfl⟩ : c.row = row ∧ c.text = text := ⟨hmoves.row_eq, hmoves.text_eq⟩
  have hcolumn : c.column ≤ c.text.length := hmoves.tiled.le_length (Nat.zero_le _)
  have htraced : ((Draft.start c word.value file).argument vocabulary name).Traced c :=
    Draft.traced_argument (Draft.traces_start hcolumn word.value file) rfl vocabulary name
  unfold recognised
  dsimp only
  generalize (Draft.start c word.value file).argument vocabulary name = o at htraced
  obtain ⟨values, stop, hrest, hstored, hkept⟩ := htraced.tiled
  have htiled := hmoves.tiled.append hrest
  have hperm := perm_ranges_rule ⟨⟨name, word.range⟩, o.operator, o.value, o.comment⟩
  refine ⟨rfl, rfl, htraced.within,
    ⟨hname, htraced.operator, htraced.argument, htraced.comment⟩,
    ⟨_, stop, htiled, hperm.subperm_right.2 ?_⟩, fun hvalid _ => ?_⟩
  · exact (((hstored.append_left _).append_right _).cons_cons _).subperm
  · -- Without an error, all that was read is stored and nothing is reported.
    have hclean : o.Clean := invalid_make_eq_false_iff.1 hvalid
    obtain ⟨rfl, hblank⟩ := hkept hclean
    refine ⟨_, stop, htiled, hblank, ?_⟩
    show ((LineKind.rule _).ranges ++ o.messages.ranges).Perm _
    rw [htraced.quiet hclean]
    exact (List.append_nil _).symm ▸ hperm

/-- A row that does not start with a word is traced: what is reported is on the row. -/
theorem traced_unreadable (row : Nat) (text : List Char) (file : Option String) :
    (unreadable ⟨row, text, 0⟩ file).Traced row text := by
  refine ⟨rfl, rfl, ?_, nofun, ⟨[], 0, .nil 0, .refl _⟩, fun _ hknown => absurd rfl (hknown none)⟩
  refine (Messages.within_none row text.length).report ?_ file _
  exact Range.within_onRow (le_max_right _ _) (Cursor.lastColumn_le_length _)

/-- A row that starts with a word other than a keyword is traced. -/
theorem traced_unrecognised (hmoves : Cursor.Reaches ⟨row, text, 0⟩ [word.range] c)
    (hspells : word.Spelled text SpellsWord) (file : Option String) (policy : UnknownKeywords) :
    (unrecognised c word file policy).Traced row text := by
  obtain ⟨rfl, rfl⟩ : c.row = row ∧ c.text = text := ⟨hmoves.row_eq, hmoves.text_eq⟩
  refine ⟨rfl, rfl, ?_, ?_, ⟨_, _, hmoves.tiled, .refl _⟩,
    fun _ hknown => absurd rfl (hknown (some word))⟩
  · have hword := (hmoves.tiled.mem List.mem_cons_self).1
    cases policy with
    | warn => exact (Messages.within_none _ _).report hword file _
    | ignore => exact Messages.within_none _ _
  · rintro t ⟨⟩
    exact hspells

/-- Whatever a row holds, its line is traced. -/
theorem traced_read (row : Nat) (text : List Char) (file : Option String)
    (vocabulary : Vocabulary) : (read ⟨row, text, 0⟩ file vocabulary).Traced row text := by
  unfold read
  split_ifs with hempty
  · have hblank : BlankBetween text 0 text.length := Cursor.blankBetween_of_isEmpty hempty
    exact ⟨rfl, rfl, Messages.within_none _ _, trivial, ⟨[], 0, .nil 0, .refl _⟩,
      fun _ _ => ⟨[], 0, .nil 0, hblank, .refl _⟩⟩
  · cases hcomment : Cursor.comment ⟨row, text, 0⟩ with
    | some found =>
      obtain ⟨t, last⟩ := found
      obtain ⟨hmoves, hblank, hspells⟩ := Cursor.comment_reaches hcomment
      exact ⟨rfl, rfl, Messages.within_none _ _, hspells, ⟨_, _, hmoves.tiled, .refl _⟩,
        fun _ _ => ⟨_, _, hmoves.tiled, hblank, .refl _⟩⟩
    | none =>
      dsimp only
      cases hword : Cursor.next word? ⟨row, text, 0⟩ with
      | none => exact traced_unreadable row text file
      | some found =>
        obtain ⟨word, c⟩ := found
        obtain ⟨hmoves, hspells⟩ := Cursor.next_reaches recognises_word
          (fun h => h.isBareString.isString.isVisible) hword
        dsimp only
        cases hkeyword : Keyword.ofName? word.value with
        | none => exact traced_unrecognised hmoves hspells file _
        | some keyword =>
          -- The word is the keyword, letter by letter.
          have hname : word.range.cut text = keyword.name.toList := by
            rw [← Keyword.ofName?_eq_some_iff.1 hkeyword, hspells.2.2, String.toList_ofList]
          cases keyword with
          | block visibility => exact traced_recognised_block hmoves hname file vocabulary
          | rule name => exact traced_recognised_rule hmoves hname file vocabulary

/-- Every text without line breaks is read, and each token of its line stands on the row and is
spelled there. If the row is right and starts with no other word than a keyword, then the tokens and
the diagnostics lie apart, and every character that is not blank stands in one of them. -/
theorem parse_faithful {text : String} (h : IsRow text) (row : Nat) (file : Option String)
    (vocabulary : Vocabulary) :
    ∃ line, parse text row file vocabulary = .ok line ∧
      (∀ r ∈ line.kind.ranges, r.Within row text.toList.length) ∧
      line.kind.Spelled text.toList ∧
      (line.invalid = false → (∀ word, line.kind ≠ .unknown word) →
        (line.kind.ranges ++ line.messages.ranges).Pairwise Range.Apart ∧
        ∀ i c, text.toList[i]? = some c → isBlank c = false →
          ∃ r ∈ line.kind.ranges ++ line.messages.ranges,
            r.start.column ≤ i ∧ i < r.stop.column) := by
  let source : Source := ⟨file, vocabulary, 0⟩
  have htraced : (source.line text row).Traced row text.toList := traced_read _ _ _ _
  refine ⟨source.line text row, source.parse_eq_ok h row, fun r hr => (htraced.mem hr).1,
    htraced.spelled, fun hvalid hknown => ?_⟩
  have htiling := htraced.tiling hvalid hknown
  exact ⟨htiling.pairwise_apart, fun i c hget hvisible => htiling.exists_covering hget hvisible⟩

/-- A row with an operator, a name in quotes, a bare name behind which stands an ideographic space,
and a comment with an umlaut and a blank behind it. -/
def namesRow : String := "  Class = \"Body Armours\" Gloves\u3000# Rüstung "

/-- The five tokens of the row are all that it holds but for blanks. -/
theorem parse_faithful_namesRow :
    IsRow namesRow ∧ ∃ line, parse namesRow 3 none .builtin = .ok line ∧
      line.kind.ranges ++ line.messages.ranges =
        [.onRow 3 8 9, .onRow 3 32 41, .onRow 3 2 7, .onRow 3 10 24, .onRow 3 25 31] ∧
      line.kind.Spelled namesRow.toList ∧
      (line.kind.ranges ++ line.messages.ranges).Pairwise Range.Apart ∧
      ∀ i c, namesRow.toList[i]? = some c → isBlank c = false →
        ∃ r ∈ line.kind.ranges ++ line.messages.ranges,
          r.start.column ≤ i ∧ i < r.stop.column := by
  have hrow : IsRow namesRow := by decide
  have hread : (parse namesRow 3 none .builtin).map (fun line =>
        (line.invalid, line.rule?.isSome, line.kind.ranges ++ line.messages.ranges)) =
      .ok (false, true,
        [.onRow 3 8 9, .onRow 3 32 41, .onRow 3 2 7, .onRow 3 10 24, .onRow 3 25 31]) := by
    decide +kernel
  obtain ⟨line, hline, -, hspelled, haccepted⟩ := parse_faithful hrow 3 none .builtin
  rw [hline] at hread
  have hvalues := Except.ok.inj hread
  simp only [Prod.mk.injEq] at hvalues
  obtain ⟨hvalid, hrule, hranges⟩ := hvalues
  have hknown (word : Option (Token String)) : line.kind ≠ .unknown word := by
    intro hword
    rw [rule?, hword] at hrule
    cases hrule
  exact ⟨hrow, line, hline, hranges, hspelled, haccepted hvalid hknown⟩

/-- The range of a group of sockets in quotes holds the quotes, although the row is right: what
stands there is not the letters of the group, in whatever case. -/
theorem parse_quoted_sockets :
    ∃ line rule t, parse "SocketGroup \"rGb\"" 0 none .builtin = .ok line ∧
      line.invalid = false ∧ line.kind = .rule rule ∧ rule.argument = .socketGroup (some t) ∧
      t.range.cut "SocketGroup \"rGb\"".toList = "\"rGb\"".toList ∧
      t.value ≠ String.ofList ("\"rGb\"".toList.map Char.toUpper) := by
  refine ⟨⟨.onRow 0 0 17, false, .none, .rule ⟨⟨.condition .socketGroup, .onRow 0 0 11⟩, none,
    .socketGroup (some ⟨"RGB", .onRow 0 12 17⟩), none⟩⟩, _, _, ?_, rfl, rfl, rfl, ?_, ?_⟩
  · decide +kernel
  · decide
  · decide

end Line

end ItemFilter
