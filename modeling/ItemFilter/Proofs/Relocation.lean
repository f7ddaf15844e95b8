import ItemFilter.Line.Parse
import ItemFilter.Proofs.Likeness

/-!
# Reading the same text on another row

Nothing in a line depends on its row but the rows of its ranges. `Range.atRow` puts a range on a
given row, and every function that reads a row commutes with it: reading with the cursor on another
row gives the same result with every range put there (`Line.read_atRow`). Two drafts of which one is
the other on another row are alike (`Likeness.relocation`), so that the arguments of rules need no
walk of their own.

Since all ranges of a line that was read lie on its row, moving the line is reading its text on the
row to which it is moved (`Line.shiftRows_read`). The rows of an edited text are treated so.
-/

namespace ItemFilter

/-- The columns of a range on a given row. -/
def Range.atRow (row : Nat) (r : Range) : Range :=
  ⟨⟨row, r.start.column⟩, ⟨row, r.stop.column⟩⟩

namespace Cursor

/-- The same place of the same text, on a given row. -/
def atRow (row : Nat) (c : Cursor) : Cursor := { c with row }

/-- A query on another row answers its token there. -/
theorem next_atRow {α : Type} (recognise : List Char → Option (Lexeme α)) (row : Nat) (c : Cursor) :
    (c.atRow row).next recognise =
      (c.next recognise).map fun (token, c') => (token.mapRange (.atRow row), c'.atRow row) := by
  unfold next
  rw [Option.map_map]
  rfl

/-- A comment on another row is the same comment there. -/
theorem comment_atRow (row : Nat) (c : Cursor) :
    (c.atRow row).comment =
      c.comment.map fun (token, c') => (token.mapRange (.atRow row), c'.atRow row) := by
  unfold comment
  have hcommented : (c.atRow row).isCommented = c.isCommented := rfl
  rw [hcommented]
  split_ifs
  · rfl
  · rfl

end Cursor

namespace Messages

/-- Reporting a problem and then changing all ranges is reporting it with its range changed. -/
theorem mapRanges_report (f : Range → Range) (m : Messages) (file : Option String)
    (problem : Problem) (range : Range) :
    (m.report file problem range).mapRanges f = (m.mapRanges f).report file problem (f range) := by
  unfold report
  cases problem.severity <;> simp [push, mapRanges, Diagnostic.mapRange, Problem.diagnostic]

/-- Changing ranges neither adds nor removes diagnostics. -/
theorem isEmpty_mapRanges (f : Range → Range) (m : Messages) :
    (m.mapRanges f).isEmpty = m.isEmpty := by
  simp [isEmpty, mapRanges]

/-- Changing ranges keeps whether there is an error. -/
theorem hasErrors_mapRanges (f : Range → Range) (m : Messages) :
    (m.mapRanges f).hasErrors = m.hasErrors := by
  simp [hasErrors, mapRanges]

end Messages

namespace Outcome

/-- An outcome with its ranges put on a row, those of its value by the given function. -/
def atRow {α : Type} (f : α → α) (row : Nat) (o : Outcome α) : Outcome α :=
  ⟨f o.value, o.operator.map (·.mapRange (.atRow row)), o.comment.map (·.mapRange (.atRow row)),
    o.messages.mapRanges (.atRow row)⟩

/-- An outcome is on a row if its value is, and all else is. -/
theorem eq_atRow {α : Type} {f : α → α} {row : Nat} {o o' : Outcome α}
    (hvalue : o'.value = f o.value)
    (hended : (o'.map fun _ => ()) = (o.map fun _ => ()).atRow id row) : o' = o.atRow f row := by
  obtain ⟨-, hoperator, hcomment, hmessages⟩ := Outcome.mk.inj hended
  calc o' = ⟨o'.value, o'.operator, o'.comment, o'.messages⟩ := rfl
    _ = o.atRow f row := by rw [hvalue, hoperator, hcomment, hmessages]; rfl

end Outcome

namespace Draft

/-- A draft with its cursor and its ranges put on a row. -/
def atRow (row : Nat) (d : Draft) : Draft :=
  ⟨d.cursor.atRow row, d.keyword, d.file, d.operator.map (·.mapRange (.atRow row)),
    d.messages.mapRanges (.atRow row)⟩

variable (row : Nat) (d : Draft)

/-! ## Steps of reading -/

/-- Reporting a problem on another row. -/
theorem report_atRow (problem : Problem) (range : Range) :
    (d.atRow row).report problem (range.atRow row) = (d.report problem range).atRow row := by
  simp only [report, atRow, Messages.mapRanges_report]

/-- Reading an operator on another row, and reporting it where the rule does not take it. -/
theorem readOperator_atRow (name : RuleName) :
    (d.atRow row).readOperator name = (d.readOperator name).atRow row := by
  have hnext : (d.atRow row).cursor.next Lexeme.operator? = _ :=
    Cursor.next_atRow Lexeme.operator? row d.cursor
  cases hop : d.cursor.next Lexeme.operator? with
  | none =>
    rw [hop] at hnext
    rw [readOperator_of_none hop, readOperator_of_none hnext]
    rfl
  | some found =>
    obtain ⟨op, c⟩ := found
    rw [hop] at hnext
    rw [readOperator_of_some hop, readOperator_of_some hnext]
    dsimp only [Token.mapRange, atRow]
    cases name.operatorProblem? d.keyword op.value with
    | none => rfl
    | some problem =>
      exact report_atRow row { d with cursor := c, operator := some op } problem op.range

/-- Ending a rule on another row. -/
theorem close_atRow {α : Type} (f : α → α) (trailing : Problem) (value : α) :
    (d.atRow row).close trailing (f value) = (d.close trailing value).atRow f row := by
  have hcomment : (d.atRow row).cursor.comment = _ := Cursor.comment_atRow row d.cursor
  unfold close
  rw [hcomment]
  cases d.cursor.comment with
  | some found => rfl
  | none =>
    have hempty : (d.atRow row).cursor.isEmpty = d.cursor.isEmpty := rfl
    have hreport : (d.atRow row).report trailing (d.atRow row).cursor.restOfText =
        (d.report trailing d.cursor.restOfText).atRow row :=
      report_atRow row d trailing d.cursor.restOfText
    simp only [Option.map_none, hempty, hreport]
    split_ifs
    · rfl
    · rfl

end Draft

/-! ## Rules -/

/-- A draft is like the same draft on another row. -/
def Likeness.relocation (row : Nat) : Likeness where
  move := .atRow row
  Alike d d' := d' = d.atRow row
  Ended o o' := o' = o.atRow id row
  Permits _ := True
  permits _ _ := trivial
  keyword_eq := by
    rintro d _ rfl
    rfl
  next := by
    rintro α recognise Spells d _ - rfl
    have hnext : (d.atRow row).cursor.next recognise = _ := Cursor.next_atRow recognise row d.cursor
    rw [hnext]
    cases d.cursor.next recognise with
    | none => exact .inl ⟨rfl, rfl⟩
    | some found =>
      obtain ⟨t, c⟩ := found
      refine .inr ⟨t, c, c.atRow row, rfl, rfl, rfl, fun problem _ _ => ?_⟩
      exact Draft.report_atRow row { d with cursor := c } problem t.range
  finish := by
    rintro d _ rfl
    exact Draft.close_atRow row d id .trailingText ()
  missing := by
    rintro d _ problem rfl - - -
    exact congrArg (Draft.abort · ()) (Draft.report_atRow row d problem d.cursor.restOfLine)

/-- The argument of a rule on another row. -/
theorem Draft.argument_atRow (row : Nat) (d : Draft) (vocabulary : Vocabulary) (name : RuleName) :
    (d.atRow row).argument vocabulary name =
      (d.argument vocabulary name).atRow (Argument.mapRanges (.atRow row)) row := by
  have halike : (Likeness.relocation row).Alike (d.readOperator name)
      ((d.atRow row).readOperator name) := readOperator_atRow row d name
  -- Whether anything was reported does not depend on where it was.
  have hempty : ((d.atRow row).readOperator name).messages.isEmpty =
      (d.readOperator name).messages.isEmpty := by
    rw [readOperator_atRow]
    exact Messages.isEmpty_mapRanges _ _
  obtain ⟨hvalue, hended⟩ := Likeness.argument halike (fun _ _ => trivial) (fun _ _ => hempty)
    vocabulary
  exact Outcome.eq_atRow hvalue hended

/-! ## Lines -/

namespace Line

/-- Putting the ranges of a line on a row keeps whether it is invalid. -/
theorem mapRanges_make (f : Range → Range) (range : Range) (kind : LineKind) (m : Messages) :
    (make range kind m).mapRanges f = make (f range) (kind.mapRanges f) (m.mapRanges f) := by
  simp only [make, mapRanges, Messages.hasErrors_mapRanges]

/-- The line of a keyword on another row. -/
theorem recognised_atRow (row : Nat) (c : Cursor) (word : Token String) (keyword : Keyword)
    (file : Option String) (vocabulary : Vocabulary) :
    recognised (c.atRow row) (word.mapRange (.atRow row)) keyword file vocabulary =
      (recognised c word keyword file vocabulary).mapRanges (.atRow row) := by
  have hstart : Draft.start (c.atRow row) word.value file =
      (Draft.start c word.value file).atRow row := rfl
  cases keyword with
  | block visibility =>
    have hheader : ((Draft.start c word.value file).atRow row).header =
        (Draft.start c word.value file).header.atRow id row :=
      Draft.close_atRow row _ id .ignoredText ()
    simp only [recognised, mapRanges_make]
    simp only [Token.mapRange] at hstart hheader ⊢
    rw [hstart, hheader]
    rfl
  | rule name =>
    simp only [recognised, mapRanges_make]
    dsimp only [Token.mapRange]
    rw [hstart, Draft.argument_atRow]
    rfl

/-- Reading a row with the cursor on another row gives the same line there. -/
theorem read_atRow (row : Nat) (c : Cursor) (file : Option String) (vocabulary : Vocabulary) :
    read (c.atRow row) file vocabulary = (read c file vocabulary).mapRanges (.atRow row) := by
  unfold read
  have hempty : (c.atRow row).isEmpty = c.isEmpty := rfl
  rw [hempty, Cursor.comment_atRow, Cursor.next_atRow]
  by_cases hblank : c.isEmpty = true
  · rw [if_pos hblank, if_pos hblank]
    rfl
  rw [if_neg hblank, if_neg hblank]
  cases c.comment with
  | some found => rfl
  | none =>
    dsimp only [Option.map_none]
    cases c.next Lexeme.word? with
    | none => rfl
    | some found =>
      obtain ⟨word, c'⟩ := found
      dsimp only [Option.map_some]
      have hword : (word.mapRange (.atRow row)).value = word.value := rfl
      rw [hword]
      cases Keyword.ofName? word.value with
      | none =>
        -- The row is skipped, with a warning on the word or without.
        cases hpolicy : vocabulary.unknownKeywords with
        | ignore => rfl
        | warn => rfl
      | some keyword => exact recognised_atRow row c' word keyword file vocabulary

end Line

/-! ## Changing ranges twice -/

section Twice

variable (f g : Range → Range)

/-- Changing the ranges of diagnostics twice is changing them once. -/
theorem Messages.mapRanges_mapRanges (m : Messages) :
    (m.mapRanges f).mapRanges g = m.mapRanges fun r => g (f r) := by
  simp [mapRanges, Function.comp_def, Diagnostic.mapRange]

/-- Changing the ranges of an argument twice is changing them once. -/
theorem Argument.mapRanges_mapRanges (a : Argument) :
    (a.mapRanges f).mapRanges g = a.mapRanges fun r => g (f r) := by
  cases a <;>
    simp [mapRanges, Function.comp_def, Token.mapRange, Color.mapRanges, AlertSound.mapRanges]

/-- Changing the ranges of the tokens of a line twice is changing them once. -/
theorem LineKind.mapRanges_mapRanges (kind : LineKind) :
    (kind.mapRanges f).mapRanges g = kind.mapRanges fun r => g (f r) := by
  cases kind <;>
    simp [mapRanges, Function.comp_def, Token.mapRange, Argument.mapRanges_mapRanges]

/-- Changing the ranges of a line twice is changing them once. -/
theorem Line.mapRanges_mapRanges (line : Line) :
    (line.mapRanges f).mapRanges g = line.mapRanges fun r => g (f r) := by
  simp only [mapRanges, Messages.mapRanges_mapRanges, LineKind.mapRanges_mapRanges]

end Twice

namespace Line

/-- Moving a line that was read is reading its text on the row to which it is moved. -/
theorem shiftRows_read (delta : Int) (c : Cursor) (file : Option String)
    (vocabulary : Vocabulary) :
    (read c file vocabulary).shiftRows delta =
      read (c.atRow (shiftRow delta c.row)) file vocabulary := by
  -- Every range of the line is on the cursor's row.
  have honRow : read c file vocabulary = (read c file vocabulary).mapRanges (.atRow c.row) :=
    read_atRow c.row c file vocabulary
  calc (read c file vocabulary).shiftRows delta
      = ((read c file vocabulary).mapRanges (.atRow c.row)).mapRanges (.shiftRows delta) := by
        rw [← honRow]
        rfl
    _ = (read c file vocabulary).mapRanges (.atRow (shiftRow delta c.row)) :=
        mapRanges_mapRanges _ _ _
    _ = read (c.atRow (shiftRow delta c.row)) file vocabulary := (read_atRow _ _ _ _).symm

end Line

end ItemFilter
