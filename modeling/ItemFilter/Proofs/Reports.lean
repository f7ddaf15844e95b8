import ItemFilter.Proofs.Placement
import ItemFilter.Proofs.Splice

/-!
# The order of reports

The diagnostics of a text come in the order of the places that they are about. While a rule is read,
every error that was reported lies behind the cursor, holds a character and stops before the next
one starts (`Draft.Ordered`), since an error is reported on the token that was read last. Only the
last error may be about what is in front of the cursor (`Draft.Ordered.last`). So the diagnostics of
a row follow each other from left to right (`Line.ordered_read`), and those of a text from row to
row (`Source.pairwise_diagnostics`). Each names the file that the text comes from.
-/

namespace ItemFilter

open Text Lexeme

/-! ## Diagnostics of a row -/

/-- A place comes before another: it is on a row above, or further left on the same row. -/
instance : LT Point where
  lt p q := p.row < q.row ∨ p.row = q.row ∧ p.column < q.column

/-- A diagnostic comes before another: it starts before it, and stops before it starts. -/
def Diagnostic.Precedes (d e : Diagnostic) : Prop :=
  d.range.start < e.range.start ∧ d.range.stop ≤ e.range.start

namespace Messages

/-- The diagnostics of a row come from left to right, and each names the file. -/
structure Ordered (file : Option String) (row : Nat) (m : Messages) : Prop where
  file_eq : ∀ x ∈ m.toList, x.2.file = file
  onRow : ∀ x ∈ m.toList, x.2.range.start.row = row ∧ x.2.range.stop.row = row
  pairwise : m.toList.Pairwise fun x y => x.2.Precedes y.2

variable {file : Option String} {row : Nat}

/-- Where nothing is reported, there is nothing to be ordered. -/
theorem ordered_none (file : Option String) (row : Nat) : Messages.none.Ordered file row :=
  ⟨nofun, nofun, .nil⟩

/-- An error is added behind the others. -/
theorem report_error {problem : Problem} (h : problem.severity = .error) (m : Messages)
    (file : Option String) (range : Range) :
    m.report file problem range =
      { m with errors := m.errors ++ [problem.diagnostic file range] } := by
  rw [report, h]
  rfl

/-- A first report is the only one. -/
theorem toList_report_none (file : Option String) (problem : Problem) (range : Range) :
    (Messages.none.report file problem range).toList =
      [(problem.severity, problem.diagnostic file range)] := by
  unfold report
  cases problem.severity with
  | error => rfl
  | warning => rfl
  | info => rfl

/-- A first report on the row. -/
theorem ordered_report_none (file : Option String) (problem : Problem) {range : Range}
    (hstart : range.start.row = row) (hstop : range.stop.row = row) :
    (Messages.none.report file problem range).Ordered file row := by
  have hlist := toList_report_none file problem range
  refine ⟨?_, ?_, ?_⟩
  · rw [hlist]
    exact List.forall_mem_singleton.2 rfl
  · rw [hlist]
    exact List.forall_mem_singleton.2 ⟨hstart, hstop⟩
  · rw [hlist]
    exact List.pairwise_singleton _ _

/-- Errors that come from left to right, where there is nothing else. -/
theorem ordered_of_errors {errors : List Diagnostic} (hfile : ∀ e ∈ errors, e.file = file)
    (hrow : ∀ e ∈ errors, e.range.start.row = row ∧ e.range.stop.row = row)
    (hpairwise : errors.Pairwise Diagnostic.Precedes) :
    (⟨errors, [], []⟩ : Messages).Ordered file row := by
  have hlist : (⟨errors, [], []⟩ : Messages).toList = errors.map (Severity.error, ·) := by
    simp [toList]
  refine ⟨?_, ?_, ?_⟩
  · rw [hlist]
    exact List.forall_mem_map.2 hfile
  · rw [hlist]
    exact List.forall_mem_map.2 hrow
  · rw [hlist]
    exact List.pairwise_map.2 hpairwise

end Messages

/-! ## Reports behind the cursor -/

namespace Draft

/-- The errors that were reported so far come from left to right and lie behind the cursor. -/
structure Ordered (d : Draft) : Prop where
  /-- Nothing but errors is reported. -/
  only : d.messages = ⟨d.messages.errors, [], []⟩
  file_eq : ∀ e ∈ d.messages.errors, e.file = d.file
  /-- Every error holds a character behind the cursor. -/
  behind : ∀ e ∈ d.messages.errors, e.range.Within d.cursor.row d.cursor.column ∧
    e.range.start.column < e.range.stop.column
  pairwise : d.messages.errors.Pairwise fun e e' => e.range.stop.column ≤ e'.range.start.column

namespace Ordered

variable {d : Draft}

/-- Nothing is reported in a draft that was just started. -/
theorem start (c : Cursor) (keyword : String) (file : Option String) :
    (Draft.start c keyword file).Ordered :=
  ⟨rfl, nofun, nofun, .nil⟩

/-- Moving the cursor on. -/
theorem move (h : d.Ordered) {ranges : List Range} {c : Cursor}
    (hmoves : d.cursor.Reaches ranges c) (operator : Option (Token Operator)) :
    ({ d with cursor := c, operator } : Draft).Ordered where
  only := h.only
  file_eq := h.file_eq
  behind := by
    intro e he
    have hle := hmoves.tiled.le
    obtain ⟨hwithin, hlt⟩ := h.behind e he
    dsimp only
    rw [hmoves.row_eq]
    exact ⟨{ hwithin with stop_le := hwithin.stop_le.trans hle }, hlt⟩
  pairwise := h.pairwise

/-- The errors of a draft are in order with a further one behind them. -/
theorem pairwise_concat (h : d.Ordered) {e : Diagnostic}
    (hstart : d.cursor.column ≤ e.range.start.column) :
    (d.messages.errors ++ [e]).Pairwise fun e e' =>
      e.range.stop.column ≤ e'.range.start.column := by
  refine List.pairwise_append.2 ⟨h.pairwise, List.pairwise_singleton _ _, ?_⟩
  intro e₁ he₁ e₂ he₂
  obtain rfl := List.mem_singleton.1 he₂
  exact (h.behind e₁ he₁).1.stop_le.trans hstart

/-- Moving the cursor over a token and reporting an error on it. -/
theorem report (h : d.Ordered) {r : Range} {c : Cursor} (hmoves : d.cursor.Reaches [r] c)
    (operator : Option (Token Operator)) {problem : Problem} (herror : problem.severity = .error) :
    (({ d with cursor := c, operator } : Draft).report problem r).Ordered := by
  have hmoved := h.move hmoves operator
  obtain ⟨hwithin, hstart, hlt, hstop⟩ := hmoves.tiled.mem List.mem_cons_self
  have hreport := Messages.report_error herror d.messages d.file r
  have herrors : (({ d with cursor := c, operator } : Draft).report problem r).messages.errors =
      d.messages.errors ++ [problem.diagnostic d.file r] := by
    rw [Draft.report, hreport]
  refine ⟨?_, ?_, ?_, ?_⟩
  · rw [herrors]
    show d.messages.report d.file problem r = _
    rw [hreport, h.only]
  · rw [herrors]
    exact List.forall_mem_append.2 ⟨h.file_eq, List.forall_mem_singleton.2 rfl⟩
  · rw [herrors]
    refine List.forall_mem_append.2 ⟨hmoved.behind, List.forall_mem_singleton.2 ⟨?_, hlt⟩⟩
    show r.Within c.row c.column
    rw [hmoves.row_eq]
    exact { hwithin with stop_le := hstop }
  · rw [herrors]
    exact h.pairwise_concat hstart

/-- What is behind the cursor precedes what is in front of it. -/
theorem precedes (h : d.Ordered) {errors : List Diagnostic}
    (hpairwise : (d.messages.errors ++ errors).Pairwise fun e e' =>
      e.range.stop.column ≤ e'.range.start.column) (hsize : errors.length ≤ 1)
    (hrow : ∀ e ∈ errors, e.range.start.row = d.cursor.row) :
    (d.messages.errors ++ errors).Pairwise Diagnostic.Precedes := by
  obtain ⟨hbehind, hfront, hacross⟩ := List.pairwise_append.1 hpairwise
  have hprecedes (e e' : Diagnostic) (he : e ∈ d.messages.errors)
      (hrow' : e'.range.start.row = d.cursor.row)
      (hle : e.range.stop.column ≤ e'.range.start.column) : e.Precedes e' := by
    obtain ⟨hwithin, hlt⟩ := h.behind e he
    exact ⟨.inr ⟨hwithin.start_row.trans hrow'.symm, hlt.trans_le hle⟩,
      .inr ⟨hwithin.stop_row.trans hrow'.symm, hle⟩⟩
  refine List.pairwise_append.2 ⟨?_, ?_, ?_⟩
  · refine hbehind.imp_of_mem fun {e e'} he he' hle => ?_
    exact hprecedes e e' he (h.behind e' he').1.start_row hle
  · -- At most one error is in front of the cursor.
    match errors, hsize with
    | [], _ => exact .nil
    | [e], _ => exact List.pairwise_singleton _ _
  · exact fun e he e' he' => hprecedes e e' he (hrow e' he') (hacross e he e' he')

/-- The messages of a draft are in order. -/
theorem messages (h : d.Ordered) : d.messages.Ordered d.file d.cursor.row := by
  rw [h.only]
  refine Messages.ordered_of_errors h.file_eq ?_ ?_
  · exact fun e he => ⟨(h.behind e he).1.start_row, (h.behind e he).1.stop_row⟩
  · have hpairwise : (d.messages.errors ++ []).Pairwise Diagnostic.Precedes :=
      h.precedes (by rw [List.append_nil]; exact h.pairwise) (Nat.zero_le _) nofun
    rwa [List.append_nil] at hpairwise

/-- The messages of a draft are in order with a last error about what is in front of the cursor. -/
theorem last (h : d.Ordered) {problem : Problem} (herror : problem.severity = .error)
    {start stop : Nat} (hstart : d.cursor.column ≤ start) :
    (d.report problem (d.cursor.columns start stop)).messages.Ordered d.file d.cursor.row := by
  show (d.messages.report d.file problem (d.cursor.columns start stop)).Ordered _ _
  rw [Messages.report_error herror, h.only]
  refine Messages.ordered_of_errors ?_ ?_ ?_
  · exact List.forall_mem_append.2 ⟨h.file_eq, List.forall_mem_singleton.2 rfl⟩
  · refine List.forall_mem_append.2 ⟨?_, List.forall_mem_singleton.2 ⟨rfl, rfl⟩⟩
    exact fun e he => ⟨(h.behind e he).1.start_row, (h.behind e he).1.stop_row⟩
  · exact h.precedes (h.pairwise_concat hstart) (Nat.le_refl 1) (List.forall_mem_singleton.2 rfl)

end Ordered

end Draft

/-! ## Rules -/

/-- While a rule of a row is read, its errors are in order behind the cursor. -/
def Invariant.ordered (file : Option String) (row : Nat) : Invariant where
  Holds d := d.Ordered ∧ d.file = file ∧ d.cursor.row = row
  Ended o := o.messages.Ordered file row
  Permits problem := problem.severity = .error
  permits herror _ := herror
  next := by
    rintro α recognise Spells d t c hreads ⟨hordered, hfile, hrow⟩ hnext
    obtain ⟨hmoves, -⟩ := Cursor.next_reaches hreads.recognises
      (fun hspells => (hreads.isString hspells).isVisible) hnext
    have hrow' : c.row = row := hmoves.row_eq.trans hrow
    refine ⟨⟨hordered.move hmoves d.operator, hfile, hrow'⟩, fun problem herror _ => ?_⟩
    exact ⟨hordered.report hmoves d.operator herror, hfile, hrow'⟩
  finish := by
    rintro d ⟨hordered, rfl, rfl⟩
    unfold Draft.finish Draft.close
    cases d.cursor.comment with
    | some found => exact hordered.messages
    | none =>
      dsimp only
      split_ifs
      · exact hordered.messages
      · exact hordered.last rfl d.cursor.column_le_nextColumn
  missing := by
    rintro d problem ⟨hordered, rfl, rfl⟩ herror - -
    exact hordered.last herror d.cursor.column_le_nextColumn

/-- An operator that is reported is in order as well. -/
theorem Draft.Ordered.readOperator {d : Draft} (h : d.Ordered) (name : RuleName) :
    (Invariant.ordered d.file d.cursor.row).Holds (d.readOperator name) := by
  cases hnext : d.cursor.next operator? with
  | none =>
    rw [readOperator_of_none hnext]
    exact ⟨h.move (.refl d.cursor) none, rfl, rfl⟩
  | some found =>
    obtain ⟨op, c⟩ := found
    obtain ⟨hmoves, -⟩ :=
      Cursor.next_reaches recognises_operator (fun hop => hop ▸ isVisible_symbol _) hnext
    rw [readOperator_of_some hnext]
    cases hproblem : name.operatorProblem? d.keyword op.value with
    | none => exact ⟨h.move hmoves (some op), rfl, hmoves.row_eq⟩
    | some problem =>
      have herror := RuleName.severity_operatorProblem? hproblem
      exact ⟨h.report hmoves (some op) herror, rfl, hmoves.row_eq⟩

/-! ## Rows and texts -/

namespace Line

/-- The diagnostics of a block header are in order: there is one at most. -/
theorem ordered_header (c : Cursor) (keyword : String) (file : Option String) :
    (Draft.start c keyword file).header.messages.Ordered file c.row := by
  rw [Draft.header, Draft.close]
  split
  · exact Messages.ordered_none file c.row
  · split_ifs
    · exact Messages.ordered_none file c.row
    · exact Messages.ordered_report_none file .ignoredText rfl rfl

/-- The diagnostics of a row come from left to right, and each names the file. -/
theorem ordered_read (c : Cursor) (file : Option String) (vocabulary : Vocabulary) :
    (read c file vocabulary).messages.Ordered file c.row := by
  unfold read
  split_ifs
  · exact Messages.ordered_none file c.row
  split
  · exact Messages.ordered_none file c.row
  split
  · exact Messages.ordered_report_none file (.unreadableKeyword c.peek) rfl rfl
  rename_i word c' hnext
  obtain ⟨hmoves, -⟩ := Cursor.next_reaches recognises_word
    (fun h => h.isBareString.isString.isVisible) hnext
  obtain ⟨hwithin, -⟩ := hmoves.tiled.mem List.mem_cons_self
  split
  · cases vocabulary.unknownKeywords with
    | warn =>
      exact Messages.ordered_report_none file (.unknownKeyword word.value) hwithin.start_row
        hwithin.stop_row
    | ignore => exact Messages.ordered_none file c.row
  · rename_i keyword _
    rw [← hmoves.row_eq]
    cases keyword with
    | block visibility => exact ordered_header c' word.value file
    | rule name =>
      have hstart := Draft.Ordered.start c' word.value file
      exact (Invariant.ordered file c'.row).argument (hstart.readOperator name)
        (fun _ _ => rfl) vocabulary

end Line

namespace Source

variable (source : Source)

/-- The diagnostics of texts on successive rows, from a given one. -/
def diagnosticsFrom (row : Nat) (texts : List String) : List (Severity × Diagnostic) :=
  (source.linesFrom row texts).flatMap fun line => line.messages.toList

/-- The first text has the first diagnostics. -/
theorem diagnosticsFrom_cons (row : Nat) (text : String) (texts : List String) :
    source.diagnosticsFrom row (text :: texts) =
      (source.line text row).messages.toList ++ source.diagnosticsFrom (row + 1) texts := by
  simp [diagnosticsFrom, linesFrom]

/-- All diagnostics are on the rows of the texts, and name the file. -/
theorem mem_diagnosticsFrom {row : Nat} {texts : List String} {x : Severity × Diagnostic}
    (h : x ∈ source.diagnosticsFrom row texts) :
    x.2.file = source.file ∧ row ≤ x.2.range.start.row := by
  induction texts generalizing row with
  | nil => cases h
  | cons text texts ih =>
    rw [diagnosticsFrom_cons] at h
    rcases List.mem_append.1 h with hfirst | hrest
    · have hordered := Line.ordered_read ⟨row, text.toList, 0⟩ source.file source.vocabulary
      exact ⟨hordered.file_eq x hfirst, (hordered.onRow x hfirst).1.ge⟩
    · obtain ⟨hfile, hle⟩ := ih hrest
      exact ⟨hfile, by omega⟩

/-- The diagnostics of a text come from row to row, and on each row from left to right. -/
theorem pairwise_diagnostics (row : Nat) (texts : List String) :
    (source.diagnosticsFrom row texts).Pairwise fun x y => x.2.Precedes y.2 := by
  induction texts generalizing row with
  | nil => exact .nil
  | cons text texts ih =>
    have hordered := Line.ordered_read ⟨row, text.toList, 0⟩ source.file source.vocabulary
    rw [diagnosticsFrom_cons]
    refine List.pairwise_append.2 ⟨hordered.pairwise, ih (row + 1), fun x hx y hy => ?_⟩
    obtain ⟨hstart, hstop⟩ := hordered.onRow x hx
    have hbelow := (source.mem_diagnosticsFrom hy).2
    dsimp only at hstart hstop
    exact ⟨.inl (by omega), .inl (by omega)⟩

end Source

end ItemFilter
