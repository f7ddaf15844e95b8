import ItemFilter.Line.Ranges
import ItemFilter.Proofs.Reading

/-!
# The same text in other columns

What is read behind a cursor depends on the text in front of it only. A cursor that splits a row in
two parts (`Cursor.between`) finds a token exactly when its second part is made of blanks, the token
and a rest that may follow it, and then splits the row behind the token
(`Cursor.next_between`, `Cursor.exists_between`).

A cursor is displaced from another if both have the same text in front of them, up to leading
blanks, in columns that differ by a fixed number (`Cursor.Displaced`). Displaced cursors find the
same tokens, moved by that number, and stay displaced behind them (`Cursor.Displaced.next`). So
replacing a part of a row that is behind the cursor changes nothing but columns in front of it.
-/

namespace ItemFilter

open Text Lexeme

/-- The range moved to the right by a number of columns, or to the left if it is negative. -/
def Range.shiftColumns (k : Int) (r : Range) : Range :=
  ⟨⟨r.start.row, (r.start.column + k).toNat⟩, ⟨r.stop.row, (r.stop.column + k).toNat⟩⟩

namespace Cursor

/-! ## Rows in two parts -/

/-- The cursor between two parts of a row. -/
def between (row : Nat) (before after : List Char) : Cursor := ⟨row, before ++ after, before.length⟩

variable {row : Nat} {before after : List Char}

/-- The second part is in front of the cursor. -/
theorem remaining_between (row : Nat) (before after : List Char) :
    (between row before after).remaining = after :=
  List.drop_left

section Next

variable {α : Type} {recognise : List Char → Option (Lexeme α)} {Spells : List Char → α → Prop}
  {Ends : List Char → Prop}

/-- A token behind blanks is found, and the row is split behind it. -/
theorem next_between (hrec : Recognises recognise Spells Ends) {blanks token rest : List Char}
    {value : α} (hblanks : ∀ c ∈ blanks, isBlank c = true) (hspells : Spells token value)
    (hvisible : IsVisible token) (hends : Ends rest) (row : Nat) (before : List Char) :
    (between row before (blanks ++ token ++ rest)).next recognise =
      some (⟨value, .onRow row (before ++ blanks).length (before ++ blanks ++ token).length⟩,
        between row (before ++ blanks ++ token) rest) := by
  have hremaining := remaining_between row before (blanks ++ token ++ rest)
  have hahead : (between row before (blanks ++ token ++ rest)).ahead = token ++ rest := by
    rw [ahead, hremaining]
    exact StartsWith.trimStart_eq ⟨blanks, hblanks, rfl⟩ hvisible
  have hcolumn : (between row before (blanks ++ token ++ rest)).nextColumn =
      (before ++ blanks).length := by
    have hstops : Stops isBlank (token ++ rest) := by
      obtain ⟨c, cs, rfl, hc⟩ := hvisible
      exact stops_cons.2 hc
    rw [nextColumn, hremaining, List.append_assoc, takeWhile_append_of_stop hblanks hstops,
      List.length_append]
    rfl
  rw [next, hahead, hrec.complete hspells hends, Option.map_some, hcolumn]
  simp [between, columns, Nat.add_assoc]

/-- A token that is found is behind blanks, and the row is split behind it. -/
theorem exists_between (hrec : Recognises recognise Spells Ends)
    (hvisible : ∀ {token value}, Spells token value → IsVisible token) {t : Token α} {c : Cursor}
    (h : (between row before after).next recognise = some (t, c)) :
    ∃ blanks token rest, (∀ c ∈ blanks, isBlank c = true) ∧ after = blanks ++ token ++ rest ∧
      Spells token t.value ∧ Ends rest ∧
      t.range = .onRow row (before ++ blanks).length (before ++ blanks ++ token).length ∧
      c = between row (before ++ blanks ++ token) rest := by
  obtain ⟨token, hspells, ⟨blanks, hblanks, hafter⟩, hends⟩ := next_eq_some hrec h
  generalize c.remaining = rest at hafter hends
  rw [remaining_between] at hafter
  rw [hafter, next_between hrec hblanks hspells (hvisible hspells) hends] at h
  obtain ⟨htoken, hcursor⟩ := Prod.mk.inj (Option.some.inj h)
  exact ⟨blanks, token, rest, hblanks, hafter, hspells, hends,
    (congrArg Token.range htoken).symm, hcursor.symm⟩

/-- A query finds nothing exactly when the text does not start with a token of its class. -/
theorem next_eq_none_iff (hrec : Recognises recognise Spells Ends)
    (hvisible : ∀ {token value}, Spells token value → IsVisible token) {c : Cursor} :
    c.next recognise = none ↔
      ¬ ∃ token value rest, Spells token value ∧ StartsWith c.remaining token rest ∧ Ends rest := by
  constructor
  · rintro h ⟨token, value, rest, hspells, hstarts, hends⟩
    exact next_eq_none hrec h hspells (hvisible hspells) hends hstarts
  · intro h
    cases hnext : c.next recognise with
    | none => rfl
    | some found =>
      obtain ⟨token, hspells, hstarts, hends⟩ := next_eq_some hrec hnext
      exact absurd ⟨token, found.1.value, found.2.remaining, hspells, hstarts, hends⟩ h

end Next

/-! ## Displaced cursors -/

/-- Two cursors have the same text in front of them, the second one in columns that are greater by
`k`. -/
structure Displaced (k : Int) (c c' : Cursor) : Prop where
  row_eq : c'.row = c.row
  ahead_eq : c'.ahead = c.ahead
  column_eq : (c'.nextColumn : Int) = c.nextColumn + k

variable {k : Int} {c c' : Cursor}

/-- A cursor with the same text in front of it, behind further blanks. -/
theorem displaced_of_remaining (blanks : List Char) (hblanks : ∀ ch ∈ blanks, isBlank ch = true)
    (hrow : c'.row = c.row) (hremaining : c'.remaining = blanks ++ c.remaining)
    (hcolumn : (c'.column : Int) + blanks.length = c.column + k) : c.Displaced k c' where
  row_eq := hrow
  ahead_eq := by
    rw [ahead, hremaining]
    exact List.dropWhile_append_of_pos hblanks
  column_eq := by
    unfold nextColumn
    rw [hremaining, List.takeWhile_append_of_pos hblanks, List.length_append]
    omega

/-- A cursor behind another token in the place of a token. -/
theorem displaced_between (row : Nat) (before token token' after : List Char) :
    (between row (before ++ token) after).Displaced (token'.length - token.length)
      (between row (before ++ token') after) := by
  refine displaced_of_remaining [] nofun rfl ?_ ?_
  · rw [remaining_between, remaining_between, List.nil_append]
  · simp only [between, List.length_append, List.length_nil]
    omega

/-- Displaced cursors find the same lexeme, or both find none. -/
theorem Displaced.next {α : Type} (h : c.Displaced k c')
    (recognise : List Char → Option (Lexeme α)) :
    (c.next recognise = none ∧ c'.next recognise = none) ∨
    ∃ t c₁ c₁', c.next recognise = some (t, c₁) ∧
      c'.next recognise = some (t.mapRange (.shiftColumns k), c₁') ∧ c₁.Displaced k c₁' := by
  have hrow := h.row_eq
  have hcolumn := h.column_eq
  have hahead := h.ahead_eq
  unfold Cursor.next
  rw [hahead]
  cases recognise c.ahead with
  | none => exact .inl ⟨rfl, rfl⟩
  | some lexeme =>
    let stop (c : Cursor) : Cursor := { c with column := c.nextColumn + lexeme.text.length }
    -- Behind the lexeme, the same text is left.
    have hremaining (c : Cursor) : (stop c).remaining = c.ahead.drop lexeme.text.length := by
      rw [ahead_eq_drop, List.drop_drop]
      rfl
    refine .inr ⟨_, stop c, stop c', rfl, ?_, ?_⟩
    · have hstart : ((c.nextColumn : Int) + k).toNat = c'.nextColumn := by omega
      have hstop : (((c.nextColumn + lexeme.text.length : Nat) : Int) + k).toNat =
          c'.nextColumn + lexeme.text.length := by omega
      simp only [Option.map_some, Token.mapRange, Range.shiftColumns, columns, Range.onRow, hstart,
        hstop, hrow, stop]
    · refine displaced_of_remaining [] nofun hrow ?_ ?_
      · rw [List.nil_append, hremaining, hremaining, hahead]
      · show ((c'.nextColumn + lexeme.text.length : Nat) : Int) + (0 : Nat) =
          (c.nextColumn + lexeme.text.length : Nat) + k
        omega

/-- Displaced cursors have the same kind of text left. -/
theorem Displaced.isIgnored (h : c.Displaced k c') : c'.isIgnored = c.isIgnored := by
  unfold Cursor.isIgnored isEmpty isCommented
  rw [h.ahead_eq]

end Cursor

end ItemFilter
