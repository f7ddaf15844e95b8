import ItemFilter.Proofs.Displacement
import ItemFilter.Proofs.Names
import ItemFilter.Proofs.Unplaced

/-!
# Blanks around a row

Blanks in front of a row and behind it change nothing but columns.

A recogniser does not see blanks behind the text, since no token ends with one and a token that ends
with the text may as well be followed by a blank (`Recognises.append_blanks`). A cursor on a row
with further blanks around it is padded (`Cursor.Padded`): it has the same text in front of it, with
the blanks behind, in columns that are greater by a fixed number. Padded cursors find the same
tokens (`Cursor.Padded.next`) and the same comment (`Cursor.Padded.comment_eq`), and nothing else of
a row is stored. So two rules that are read from padded cursors are alike (`Likeness.padding`), and
`Line.parse_padded` follows by the cases in which a row is read.
-/

namespace ItemFilter

open Text Lexeme

/-! ## Recognisers -/

namespace Lexeme

/-- A string ends with a character that is not blank. -/
theorem IsString.getLast? {token : List Char} (h : IsString token) :
    ∀ c ∈ token.getLast?, isBlank c = false := by
  obtain ⟨value, hspells⟩ := h
  intro c hc
  cases hspells with
  | @quoted inner _ =>
    rw [List.cons_append, List.getLast?_cons, List.getLast?_concat] at hc
    obtain rfl : '"' = c := Option.some.inj hc
    decide
  | bare hbare => exact hbare.isBlank_eq_false c (List.mem_of_getLast? hc)

/-- The symbol of an operator ends with a character that is not blank. -/
theorem getLast?_symbol (op : Operator) :
    ∀ c ∈ op.symbol.toList.getLast?, isBlank c = false := by
  intro c hc
  cases op <;> obtain rfl := Option.some.inj hc <;> decide

variable {α : Type} {recognise : List Char → Option (Lexeme α)} {Spells : List Char → α → Prop}
  {Ends : List Char → Prop} {blanks : List Char}

/-- A recogniser does not see blanks behind the text, if its tokens do not end with a blank and may
stand in front of the blanks as well as at the end. -/
theorem Recognises.append_blanks (hrec : Recognises recognise Spells Ends)
    (hlast : ∀ {token value}, Spells token value → ∀ c ∈ token.getLast?, isBlank c = false)
    (hends : ∀ rest, Ends (rest ++ blanks) ↔ Ends rest)
    (hblanks : ∀ c ∈ blanks, isBlank c = true) (cs : List Char) :
    recognise (cs ++ blanks) = recognise cs := by
  have hiff (lexeme : Lexeme α) :
      recognise (cs ++ blanks) = some lexeme ↔ recognise cs = some lexeme := by
    constructor
    · intro h
      obtain ⟨hspells, rest, hsplit, hrest⟩ := hrec.sound h
      rcases List.append_eq_append_iff.1 hsplit with ⟨excess, htoken, hexcess⟩ | ⟨rest', hcs, rfl⟩
      · -- A token that reached into the blanks would end with one of them.
        have hnil : excess = [] := by
          by_contra hne
          obtain ⟨init, c, rfl⟩ := (List.eq_nil_or_concat excess).resolve_left hne
          have hvisible := hlast hspells c (by rw [htoken]; simp)
          have hblank := hblanks c (by rw [hexcess]; simp)
          rw [hblank] at hvisible
          cases hvisible
        subst hnil
        rw [List.append_nil] at htoken
        rw [List.nil_append] at hexcess
        have hnone : Ends [] := (hends []).1 (by rw [List.nil_append, hexcess]; exact hrest)
        rw [← htoken, ← List.append_nil lexeme.text]
        exact hrec.complete hspells hnone
      · rw [hcs]
        exact hrec.complete hspells ((hends rest').1 hrest)
    · intro h
      obtain ⟨hspells, rest, rfl, hrest⟩ := hrec.sound h
      rw [List.append_assoc]
      exact hrec.complete hspells ((hends rest).2 hrest)
  cases hread : recognise cs with
  | none =>
    rw [Option.eq_none_iff_forall_ne_some]
    intro lexeme h
    rw [(hiff lexeme).1 h] at hread
    cases hread
  | some lexeme => exact (hiff lexeme).2 hread

/-- Blanks behind a text are a boundary if it ends there. -/
theorem atBoundary_append_blanks (hblanks : ∀ c ∈ blanks, isBlank c = true) (rest : List Char) :
    atBoundary (rest ++ blanks) = true ↔ atBoundary rest = true := by
  cases rest with
  | nil =>
    cases blanks with
    | nil => exact Iff.rfl
    | cons c blanks => exact iff_of_true (hblanks c List.mem_cons_self) rfl
  | cons c rest => exact Iff.rfl

/-- No blank goes on with an operator. -/
theorem stops_isComparison_append_blanks (hblanks : ∀ c ∈ blanks, isBlank c = true)
    (rest : List Char) : Stops isComparison (rest ++ blanks) ↔ Stops isComparison rest := by
  cases rest with
  | nil =>
    cases blanks with
    | nil => exact Iff.rfl
    | cons c blanks =>
      exact iff_of_true (stops_cons.2 (isComparison_of_isBlank (hblanks c List.mem_cons_self)))
        stops_nil
  | cons c rest => exact Iff.rfl

end Lexeme

namespace Draft

/-- Words are read like arguments. -/
theorem reads_word : Reads word? SpellsWord where
  recognises := recognises_word
  isString := fun hspells => hspells.isBareString.isString

/-- A recogniser of arguments does not see blanks behind the text. -/
theorem Reads.append_blanks {α : Type} {recognise : List Char → Option (Lexeme α)}
    {Spells : List Char → α → Prop} (h : Reads recognise Spells) {blanks : List Char}
    (hblanks : ∀ c ∈ blanks, isBlank c = true) (cs : List Char) :
    recognise (cs ++ blanks) = recognise cs :=
  h.recognises.append_blanks (fun hspells => (h.isString hspells).getLast?)
    (atBoundary_append_blanks hblanks) hblanks cs

end Draft

/-- The operator recogniser does not see blanks behind the text. -/
theorem operator?_append_blanks {blanks : List Char} (hblanks : ∀ c ∈ blanks, isBlank c = true)
    (cs : List Char) : operator? (cs ++ blanks) = operator? cs :=
  recognises_operator.append_blanks (fun hop => hop ▸ getLast?_symbol _)
    (stops_isComparison_append_blanks hblanks) hblanks cs

/-- The kind of the lexeme at the start of a text does not depend on blanks behind it. -/
theorem kind?_append_blanks {blanks : List Char} (hblanks : ∀ c ∈ blanks, isBlank c = true)
    (cs : List Char) : kind? (cs ++ blanks) = kind? cs := by
  unfold kind?
  rw [operator?_append_blanks hblanks, Draft.reads_number.append_blanks hblanks,
    Draft.reads_boolean.append_blanks hblanks, Draft.reads_word.append_blanks hblanks,
    Draft.reads_string.append_blanks hblanks]

/-! ## Cursors -/

namespace Cursor

/-- The second cursor has the text in front of it that the first one has, with blanks behind it, in
columns that are greater by `k`. Where only blanks are left, their number does not matter. -/
structure Padded (k : Nat) (blanks : List Char) (c c' : Cursor) : Prop where
  row_eq : c'.row = c.row
  ahead_eq : c'.ahead = if c.ahead = [] then [] else c.ahead ++ blanks
  column_eq : c.ahead ≠ [] → c'.nextColumn = c.nextColumn + k

variable {k : Nat} {blanks : List Char} {c c' : Cursor}

/-- A cursor on a row with further blanks in front of the text and behind it. -/
theorem padded_of_remaining (leading : List Char) (hleading : ∀ ch ∈ leading, isBlank ch = true)
    (hblanks : ∀ ch ∈ blanks, isBlank ch = true) (hrow : c'.row = c.row)
    (hremaining : c'.remaining = leading ++ c.remaining ++ blanks)
    (hcolumn : c'.column + leading.length = c.column + k) : c.Padded k blanks c' where
  row_eq := hrow
  ahead_eq := by
    have hnone : blanks.dropWhile isBlank = [] := List.dropWhile_eq_nil_iff.2 hblanks
    unfold ahead trimStart
    rw [hremaining, List.append_assoc, List.dropWhile_append_of_pos hleading,
      List.dropWhile_append, hnone]
    simp only [List.isEmpty_iff]
  column_eq hne := by
    have hstops : ¬(c.remaining.takeWhile isBlank).length = c.remaining.length := by
      intro hlength
      apply hne
      rw [ahead, trimStart, List.dropWhile_eq_nil_iff]
      intro ch hch
      rw [← (List.takeWhile_prefix isBlank).eq_of_length hlength] at hch
      exact List.mem_takeWhile_imp hch
    unfold nextColumn
    rw [hremaining, List.append_assoc, List.takeWhile_append_of_pos hleading,
      List.takeWhile_append, if_neg hstops, List.length_append]
    omega

namespace Padded

/-- Padded cursors find the same token, or both find none, if the recogniser does not see blanks
behind the text. -/
theorem next {α : Type} {recognise : List Char → Option (Lexeme α)} {Spells : List Char → α → Prop}
    {Ends : List Char → Prop} (h : c.Padded k blanks c')
    (hblanks : ∀ ch ∈ blanks, isBlank ch = true) (hrec : Recognises recognise Spells Ends)
    (hvisible : ∀ {token value}, Spells token value → IsVisible token)
    (hsame : ∀ cs, recognise (cs ++ blanks) = recognise cs) :
    (c.next recognise = none ∧ c'.next recognise = none) ∨
    ∃ t c₁ c₁', c.next recognise = some (t, c₁) ∧
      c'.next recognise = some (t.mapRange (.shiftColumns k), c₁') ∧ c₁.Padded k blanks c₁' := by
  have hahead := h.ahead_eq
  unfold Cursor.next
  by_cases hnil : c.ahead = []
  · -- No token is empty.
    have hnone : recognise [] = none := by
      rw [Option.eq_none_iff_forall_ne_some]
      intro lexeme hlexeme
      obtain ⟨hspells, rest, hsplit, -⟩ := hrec.sound hlexeme
      obtain ⟨ch, token, htoken, -⟩ := hvisible hspells
      rw [htoken] at hsplit
      cases hsplit
    rw [hahead, if_pos hnil, hnil, hnone]
    exact .inl ⟨rfl, rfl⟩
  · have hcolumn := h.column_eq hnil
    rw [hahead, if_neg hnil, hsame]
    cases hread : recognise c.ahead with
    | none => exact .inl ⟨rfl, rfl⟩
    | some lexeme =>
      obtain ⟨-, rest, hsplit, -⟩ := hrec.sound hread
      let stop (c : Cursor) : Cursor := { c with column := c.nextColumn + lexeme.text.length }
      have hremaining (c : Cursor) : (stop c).remaining = c.ahead.drop lexeme.text.length := by
        rw [ahead_eq_drop, List.drop_drop]
        rfl
      refine .inr ⟨_, stop c, stop c', rfl, ?_, ?_⟩
      · have hstart : ((c.nextColumn : Int) + k).toNat = c'.nextColumn := by omega
        have hstop : (((c.nextColumn + lexeme.text.length : Nat) : Int) + k).toNat =
            c'.nextColumn + lexeme.text.length := by omega
        simp only [Option.map_some, Token.mapRange, Range.shiftColumns, columns, Range.onRow,
          hstart, hstop, h.row_eq, stop]
      · -- Behind the token, the same text is left.
        refine padded_of_remaining [] (by simp) hblanks h.row_eq ?_ ?_
        · rw [hremaining, hremaining, hahead, if_neg hnil, hsplit, List.append_assoc,
            List.drop_left, List.drop_left, List.nil_append]
        · show c'.nextColumn + lexeme.text.length + 0 = c.nextColumn + lexeme.text.length + k
          omega

/-- Padded cursors have nothing but blanks left together. -/
theorem isEmpty_eq (h : c.Padded k blanks c') : c'.isEmpty = c.isEmpty := by
  unfold isEmpty
  rw [h.ahead_eq]
  cases c.ahead <;> simp

/-- Padded cursors have a comment in front of them together. -/
theorem isCommented_eq (h : c.Padded k blanks c') : c'.isCommented = c.isCommented := by
  unfold isCommented
  rw [h.ahead_eq]
  cases c.ahead <;> simp

/-- Padded cursors have the same kind of lexeme in front of them. -/
theorem peek_eq (h : c.Padded k blanks c') (hblanks : ∀ ch ∈ blanks, isBlank ch = true) :
    c'.peek = c.peek := by
  unfold peek
  rw [h.ahead_eq]
  split_ifs with hnil
  · rw [hnil]
  · exact kind?_append_blanks hblanks c.ahead

/-- Padded cursors read the same comment, or both read none. -/
theorem comment_eq (h : c.Padded k blanks c') (hblanks : ∀ ch ∈ blanks, isBlank ch = true) :
    c'.comment.map Prod.fst =
      (c.comment.map Prod.fst).map (·.mapRange (.shiftColumns k)) := by
  by_cases hcommented : c.isCommented = true
  · have hne : c.ahead ≠ [] := by
      intro hnil
      rw [isCommented, hnil] at hcommented
      cases hcommented
    obtain ⟨last, hcomment⟩ := Cursor.comment_eq hcommented
    obtain ⟨last', hcomment'⟩ := Cursor.comment_eq (h.isCommented_eq.trans hcommented)
    have hahead : trimEnd c'.ahead = trimEnd c.ahead := by
      rw [h.ahead_eq, if_neg hne, trimEnd_append_blanks hblanks]
    have hcolumn := h.column_eq hne
    have hstart : ((c.nextColumn : Int) + k).toNat = c'.nextColumn := by omega
    have hstop : (((c.nextColumn + (trimEnd c.ahead).length : Nat) : Int) + k).toNat =
        c'.nextColumn + (trimEnd c.ahead).length := by omega
    rw [hcomment, hcomment', hahead]
    simp only [Option.map_some, Token.mapRange, Range.shiftColumns, columns, Range.onRow, hstart,
      hstop, h.row_eq]
  · have hnone : c.comment = none := if_neg hcommented
    have hnone' : c'.comment = none := if_neg (by rwa [h.isCommented_eq])
    rw [hnone, hnone']
    rfl

end Padded

end Cursor

/-! ## Rules -/

/-- Two drafts on padded cursors that have stored and reported the same. -/
structure Draft.Padded (k : Nat) (blanks : List Char) (d d' : Draft) : Prop where
  cursor : d.cursor.Padded k blanks d'.cursor
  keyword_eq : d'.keyword = d.keyword
  file_eq : d'.file = d.file
  operator_eq : d'.operator = d.operator.map (·.mapRange (.shiftColumns k))
  messages_eq : d'.messages.unplaced = d.messages.unplaced

/-- Two rules that have stored and reported the same, the argument apart. -/
structure Outcome.Padded (k : Nat) (o o' : Outcome Unit) : Prop where
  operator_eq : o'.operator = o.operator.map (·.mapRange (.shiftColumns k))
  comment_eq : o'.comment = o.comment.map (·.mapRange (.shiftColumns k))
  messages_eq : o'.messages.unplaced = o.messages.unplaced

namespace Draft.Padded

variable {k : Nat} {blanks : List Char} {d d' : Draft}

/-- Drafts on padded cursors may report the same problem in two places. -/
theorem report (h : d.Padded k blanks d') (problem : Problem) (range range' : Range) :
    (d.report problem range).Padded k blanks (d'.report problem range') where
  cursor := h.cursor
  keyword_eq := h.keyword_eq
  file_eq := h.file_eq
  operator_eq := h.operator_eq
  messages_eq := by
    show (d'.messages.report d'.file problem range').unplaced = _
    rw [h.file_eq]
    exact Messages.unplaced_report h.messages_eq d.file problem range range'

/-- Rules on padded cursors end alike behind their last part. -/
theorem close (h : d.Padded k blanks d') (hblanks : ∀ c ∈ blanks, isBlank c = true)
    (trailing : Problem) : (d.close trailing ()).Padded k (d'.close trailing ()) := by
  have hignored : d'.cursor.isIgnored = d.cursor.isIgnored := by
    rw [Cursor.isIgnored, Cursor.isIgnored, h.cursor.isEmpty_eq, h.cursor.isCommented_eq]
  rw [close_eq, close_eq, hignored]
  refine ⟨h.operator_eq, h.cursor.comment_eq hblanks, ?_⟩
  dsimp only
  split_ifs
  · exact h.messages_eq
  · rw [h.file_eq]
    exact Messages.unplaced_report h.messages_eq d.file trailing _ _

/-- Drafts on padded cursors read the same operator, or none. -/
theorem readOperator (h : d.Padded k blanks d') (hblanks : ∀ c ∈ blanks, isBlank c = true)
    (name : RuleName) : (d.readOperator name).Padded k blanks (d'.readOperator name) := by
  obtain ⟨hnone, hnone'⟩ | ⟨op, c, c', hsome, hsome', hcursor⟩ :=
    h.cursor.next hblanks recognises_operator (fun hop => hop ▸ isVisible_symbol _)
      (operator?_append_blanks hblanks)
  · rw [readOperator_of_none hnone, readOperator_of_none hnone']
    exact ⟨h.cursor, h.keyword_eq, h.file_eq, rfl, h.messages_eq⟩
  · have hread : ({ d with cursor := c, operator := some op } : Draft).Padded k blanks
        { d' with cursor := c', operator := some (op.mapRange (.shiftColumns k)) } :=
      ⟨hcursor, h.keyword_eq, h.file_eq, rfl, h.messages_eq⟩
    rw [h.keyword_eq] at hread
    rw [readOperator_of_some hsome, readOperator_of_some hsome', h.keyword_eq]
    dsimp only [Token.mapRange] at hread ⊢
    cases name.operatorProblem? d.keyword op.value with
    | none => exact hread
    | some problem => exact hread.report problem _ _

end Draft.Padded

/-- What two rules on padded cursors have in common. -/
def Likeness.padding (k : Nat) {blanks : List Char} (hblanks : ∀ c ∈ blanks, isBlank c = true) :
    Likeness where
  move := .shiftColumns k
  Alike := Draft.Padded k blanks
  Ended := Outcome.Padded k
  Permits _ := True
  permits _ _ := trivial
  keyword_eq h := h.keyword_eq
  next := by
    intro α recognise Spells d d' hreads h
    obtain hnone | ⟨t, c, c', hsome, hsome', hcursor⟩ :=
      h.cursor.next hblanks hreads.recognises (fun hspells => (hreads.isString hspells).isVisible)
        (hreads.append_blanks hblanks)
    · exact .inl hnone
    · have hread : ({ d with cursor := c } : Draft).Padded k blanks { d' with cursor := c' } :=
        ⟨hcursor, h.keyword_eq, h.file_eq, h.operator_eq, h.messages_eq⟩
      exact .inr ⟨t, c, c', hsome, hsome', hread, fun problem _ _ => hread.report problem _ _⟩
  finish h := h.close hblanks .trailingText
  missing := by
    intro d d' problem h _ _ _
    have hreported := h.report problem d.cursor.restOfLine d'.cursor.restOfLine
    exact ⟨hreported.operator_eq, rfl, hreported.messages_eq⟩

/-! ## Lines -/

namespace Line

/-- A second line says the same as a first, in columns that are greater by `k`. -/
structure Padded (k : Nat) (line line' : Line) : Prop where
  invalid_eq : line'.invalid = line.invalid
  /-- The tokens are the same and stand `k` columns further to the right. -/
  kind_eq : line'.kind = line.kind.mapRanges (.shiftColumns k)
  /-- The diagnostics are the same in the same order, wherever they stand. -/
  messages_eq : line'.messages.unplaced = line.messages.unplaced

variable {k : Nat} {blanks : List Char} {c c' : Cursor}

/-- Lines say the same if they are of the same kind and have the same messages. -/
theorem padded_make (kind : LineKind) {m m' : Messages} (h : m'.unplaced = m.unplaced)
    (range range' : Range) :
    (make range kind m).Padded k (make range' (kind.mapRanges (.shiftColumns k)) m') :=
  ⟨Messages.hasErrors_of_unplaced h, rfl, h⟩

/-- A row that starts with a keyword says the same behind padded cursors. -/
theorem padded_recognised (h : c.Padded k blanks c') (hblanks : ∀ ch ∈ blanks, isBlank ch = true)
    (word : Token String) (keyword : Keyword) (file : Option String) (vocabulary : Vocabulary) :
    (recognised c word keyword file vocabulary).Padded k
      (recognised c' (word.mapRange (.shiftColumns k)) keyword file vocabulary) := by
  have hstart : (Draft.start c word.value file).Padded k blanks
      (Draft.start c' word.value file) := ⟨h, rfl, rfl, rfl, rfl⟩
  cases keyword with
  | block visibility =>
    have hended := hstart.close hblanks .ignoredText
    unfold recognised Draft.header
    dsimp only [Token.mapRange]
    rw [hended.comment_eq]
    exact padded_make (.block _) hended.messages_eq _ _
  | rule name =>
    have halike := hstart.readOperator hblanks name
    have houtcomes : (Likeness.padding k hblanks).Outcomes (Argument.mapRanges (.shiftColumns k))
        ((Draft.start c word.value file).argument vocabulary name)
        ((Draft.start c' word.value file).argument vocabulary name) :=
      Likeness.argument (L := .padding k hblanks) halike (fun _ _ => trivial)
        (fun _ _ => Messages.isEmpty_of_unplaced halike.messages_eq) vocabulary
    obtain ⟨hvalue, hoperator, hcomment, hmessages⟩ := houtcomes
    unfold recognised
    dsimp only [Token.mapRange, Outcome.map] at hoperator hcomment hmessages ⊢
    rw [hvalue, hoperator, hcomment]
    exact padded_make (.rule _) hmessages _ _

/-- Rows that are read from padded cursors say the same. -/
theorem padded_read (h : c.Padded k blanks c') (hblanks : ∀ ch ∈ blanks, isBlank ch = true)
    (file : Option String) (vocabulary : Vocabulary) :
    (read c file vocabulary).Padded k (read c' file vocabulary) := by
  have hcomment := h.comment_eq hblanks
  obtain ⟨hnone, hnone'⟩ | ⟨word, c₁, c₁', hsome, hsome', hcursor⟩ :=
    h.next hblanks recognises_word (fun hspells => hspells.isBareString.isString.isVisible)
      (Draft.reads_word.append_blanks hblanks)
  · -- Without a word, the row is blank, a comment or unreadable.
    unfold read
    rw [h.isEmpty_eq, hnone, hnone']
    split_ifs
    · exact padded_make .empty rfl _ _
    cases hread : c.comment with
    | some found =>
      rw [hread] at hcomment
      obtain ⟨found', hread', htext⟩ := Option.map_eq_some_iff.1 hcomment
      rw [hread']
      dsimp only
      rw [htext]
      exact padded_make (.comment _) rfl _ _
    | none =>
      rw [hread] at hcomment
      rw [Option.map_eq_none_iff.1 hcomment]
      dsimp only [unreadable]
      rw [h.peek_eq hblanks]
      exact padded_make (.unknown none) (Messages.unplaced_report rfl file _ _ _) _ _
  · cases hkeyword : Keyword.ofName? word.value with
    | some keyword =>
      rw [read_of_keyword hsome hkeyword, read_of_keyword hsome' hkeyword]
      exact padded_recognised hcursor hblanks word keyword file vocabulary
    | none =>
      rw [read_of_unknown hsome hkeyword, read_of_unknown hsome' hkeyword]
      refine padded_make (.unknown (some word)) ?_ _ _
      cases vocabulary.unknownKeywords with
      | warn => exact Messages.unplaced_report rfl file _ _ _
      | ignore => rfl

/-- Blanks in front of a row and behind it change nothing that the row says: its line is invalid or
not as before, its tokens stand further to the right by the number of blanks in front, and its
diagnostics are the same in the same order. -/
theorem parse_padded {leading text trailing : String} (htext : IsRow text)
    (hrows : IsRow leading ∧ IsRow trailing)
    (hleading : ∀ c ∈ leading.toList, isBlank c = true)
    (htrailing : ∀ c ∈ trailing.toList, isBlank c = true)
    (row : Nat) (file : Option String) (vocabulary : Vocabulary) :
    ∃ line line', parse text row file vocabulary = .ok line ∧
      parse (leading ++ text ++ trailing) row file vocabulary = .ok line' ∧
      line.Padded leading.toList.length line' := by
  have hrow : IsRow (leading ++ text ++ trailing) := by
    intro c hc
    rw [String.toList_append, String.toList_append, List.mem_append, List.mem_append] at hc
    rcases hc with (hc | hc) | hc
    · exact hrows.1 c hc
    · exact htext c hc
    · exact hrows.2 c hc
  have hpadded : (⟨row, text.toList, 0⟩ : Cursor).Padded leading.toList.length trailing.toList
      ⟨row, (leading ++ text ++ trailing).toList, 0⟩ := by
    refine Cursor.padded_of_remaining leading.toList hleading htrailing rfl ?_ rfl
    simp only [Cursor.remaining, List.drop_zero, String.toList_append]
  refine ⟨_, _, Source.parse_eq_ok ⟨file, vocabulary, 0⟩ htext row,
    Source.parse_eq_ok ⟨file, vocabulary, 0⟩ hrow row, ?_⟩
  exact padded_read hpadded htrailing file vocabulary

/-- A wrong operator, a name that is accepted, and a quote that is never closed. -/
def unclosedName : String := "Class <Boots \"Gloves # x"

/-- A tab and an ideographic space in front and a no-break space behind: the name and the operator
are found two columns further to the right, and the same two errors are reported. -/
theorem parse_padded_unclosedName :
    (IsRow unclosedName ∧ (IsRow "\t\u3000" ∧ IsRow "\u00a0") ∧
      (∀ c ∈ "\t\u3000".toList, isBlank c = true) ∧
      ∀ c ∈ "\u00a0".toList, isBlank c = true) ∧
    ∃ line line', parse unclosedName 7 none .builtin = .ok line ∧
      parse ("\t\u3000" ++ unclosedName ++ "\u00a0") 7 none .builtin = .ok line' ∧
      line.Padded 2 line' ∧
      line'.kind = .rule ⟨⟨.condition .itemClass, .onRow 7 2 7⟩, some ⟨.less, .onRow 7 8 9⟩,
        .names [⟨"Boots", .onRow 7 9 14⟩], none⟩ ∧
      line'.messages.errors.map Diagnostic.excerpt =
        [(Problem.invalidOperator "Class" .less).excerpt, Problem.trailingText.excerpt] := by
  have hrow : IsRow unclosedName := by decide
  have hrows : IsRow "\t\u3000" ∧ IsRow "\u00a0" := by decide
  have hleading : ∀ c ∈ "\t\u3000".toList, isBlank c = true :=
    List.all_eq_true.1 (by decide +kernel)
  have htrailing : ∀ c ∈ "\u00a0".toList, isBlank c = true :=
    List.all_eq_true.1 (by decide +kernel)
  have hread : (parse ("\t\u3000" ++ unclosedName ++ "\u00a0") 7 none .builtin).map
      (fun line => (line.kind, line.messages.errors.map Diagnostic.excerpt)) =
      .ok (.rule ⟨⟨.condition .itemClass, .onRow 7 2 7⟩, some ⟨.less, .onRow 7 8 9⟩,
        .names [⟨"Boots", .onRow 7 9 14⟩], none⟩,
        [(Problem.invalidOperator "Class" .less).excerpt, Problem.trailingText.excerpt]) := by
    decide +kernel
  obtain ⟨line, line', hline, hline', hpadded⟩ :=
    parse_padded hrow hrows hleading htrailing 7 none .builtin
  rw [hline'] at hread
  obtain ⟨hkind, hexcerpts⟩ := Prod.mk.inj (Except.ok.inj hread)
  exact ⟨⟨hrow, hrows, hleading, htrailing⟩, line, line', hline, hline', hpadded, hkind,
    hexcerpts⟩

end Line

end ItemFilter
