import ItemFilter.Document
import ItemFilter.Proofs.Reports

/-!
# The messages of a document

How grave the diagnostics of a text are. A rule reports nothing but errors, since every step of
reading it does (`Invariant.errors`). Warnings come from the two kinds of rows that the game ignores
in part or as a whole: a block header reports at most the text behind it, and an unknown keyword at
most itself. No row has both, and none informs (`Line.oneSeverity_read`).

Together with the order of the diagnostics, which is that of the places that they are about, this
says in what order the messages of a document come (`Document.messages_ordered`).
-/

namespace ItemFilter

open Text Lexeme

/-! ## Rules report errors -/

/-- Nothing but errors is reported. -/
def Messages.OnlyErrors (m : Messages) : Prop := m.warnings = [] ∧ m.info = []

/-- An error that is added to errors. -/
theorem Messages.OnlyErrors.report {m : Messages} (h : m.OnlyErrors) {problem : Problem}
    (herror : problem.severity = .error) (file : Option String) (range : Range) :
    (m.report file problem range).OnlyErrors := by
  rw [report_error herror]
  exact h

/-- A rule that has reported nothing but errors goes on to do so. -/
def Invariant.errors : Invariant where
  Holds d := d.messages.OnlyErrors
  Ended o := o.messages.OnlyErrors
  Permits problem := problem.severity = .error
  permits herror _ := herror
  next _ h _ := ⟨h, fun _ herror _ => h.report herror _ _⟩
  finish {d} h := by
    rw [Draft.messages_finish]
    split_ifs
    · exact h
    · exact h.report rfl _ _
  missing h herror _ _ := h.report herror _ _

/-- Behind its operator, a rule that was just started has reported nothing but errors. -/
theorem Draft.onlyErrors_readOperator (c : Cursor) (keyword : String) (file : Option String)
    (name : RuleName) : ((start c keyword file).readOperator name).messages.OnlyErrors := by
  have hstart : (start c keyword file).messages.OnlyErrors := ⟨rfl, rfl⟩
  cases hnext : c.next operator? with
  | none =>
    rw [readOperator_of_none (d := start c keyword file) hnext]
    exact hstart
  | some found =>
    obtain ⟨op, c'⟩ := found
    rw [readOperator_of_some (d := start c keyword file) hnext]
    cases hproblem : name.operatorProblem? (start c keyword file).keyword op.value with
    | none => exact hstart
    | some problem => exact hstart.report (RuleName.severity_operatorProblem? hproblem) _ _

/-- A rule reports nothing but errors. -/
theorem Draft.onlyErrors_argument (c : Cursor) (keyword : String) (file : Option String)
    (vocabulary : Vocabulary) (name : RuleName) :
    ((start c keyword file).argument vocabulary name).messages.OnlyErrors :=
  Invariant.errors.argument (onlyErrors_readOperator c keyword file name) (fun _ _ => rfl)
    vocabulary

/-! ## Rows -/

namespace Line

/-- What is reported on a line is of one severity: errors, or a warning. -/
structure OneSeverity (line : Line) : Prop where
  /-- Errors and warnings do not occur together. -/
  errors_or_warnings : line.messages.errors = [] ∨ line.messages.warnings = []
  /-- There is one warning at most. -/
  warnings_length_le : line.messages.warnings.length ≤ 1
  /-- Only a block header or an unknown keyword has a warning. -/
  kind_of_warning : line.messages.warnings ≠ [] →
    (∃ header, line.kind = .block header) ∨ ∃ word, line.kind = .unknown (some word)
  /-- Nothing is reported for information. -/
  info_eq : line.messages.info = []

variable {range : Range} {kind : LineKind} {messages : Messages}

/-- A line of any kind may have errors only. -/
theorem oneSeverity_of_onlyErrors (h : messages.OnlyErrors) :
    (make range kind messages).OneSeverity where
  errors_or_warnings := .inr h.1
  warnings_length_le := by
    show messages.warnings.length ≤ 1
    rw [h.1]
    exact Nat.zero_le 1
  kind_of_warning hne := absurd h.1 hne
  info_eq := h.2

/-- A block header or an unknown keyword may have one warning only. -/
theorem oneSeverity_of_warning {file : Option String} {problem : Problem} {place : Range}
    (hwarning : problem.severity = .warning)
    (hkind : (∃ header, kind = .block header) ∨ ∃ word, kind = .unknown (some word)) :
    (make range kind (Messages.none.report file problem place)).OneSeverity := by
  have hreport : Messages.none.report file problem place =
      ⟨[], [problem.diagnostic file place], []⟩ := by
    rw [Messages.report, hwarning]
    rfl
  rw [hreport]
  exact ⟨.inl rfl, Nat.le_refl 1, fun _ => hkind, rfl⟩

/-- Whatever a row holds, what is reported on it is of one severity. -/
theorem oneSeverity_read (c : Cursor) (file : Option String) (vocabulary : Vocabulary) :
    (read c file vocabulary).OneSeverity := by
  have hnothing : Messages.none.OnlyErrors := ⟨rfl, rfl⟩
  unfold read
  split_ifs
  · exact oneSeverity_of_onlyErrors hnothing
  split
  · exact oneSeverity_of_onlyErrors hnothing
  split
  · exact oneSeverity_of_onlyErrors (hnothing.report rfl file c.trimmedRange)
  rename_i word c' _
  split
  · unfold unrecognised
    cases vocabulary.unknownKeywords with
    | warn => exact oneSeverity_of_warning rfl (.inr ⟨word, rfl⟩)
    | ignore => exact oneSeverity_of_onlyErrors hnothing
  · rename_i keyword _
    cases keyword with
    | block visibility =>
      -- A header is closed by a comment, by the end, or by text that the game ignores.
      unfold recognised Draft.header Draft.close
      dsimp only
      split
      · exact oneSeverity_of_onlyErrors hnothing
      · dsimp only
        split_ifs
        · exact oneSeverity_of_onlyErrors hnothing
        · exact oneSeverity_of_warning rfl (.inl ⟨_, rfl⟩)
    | rule name =>
      exact oneSeverity_of_onlyErrors (Draft.onlyErrors_argument c' word.value file vocabulary name)

end Line

/-! ## Documents -/

namespace Document

/-- Every text makes a document with the lines of all its rows. Its messages are those of all these
lines, line by line, and come in the order of the places that they are about: each starts behind the
start of the one before it, and not before that one stops. On one line they are of one severity. -/
theorem messages_ordered (text : String) (source : Source) :
    ∃ d, ofText text source = .ok d ∧ source.readAll (splitRows text) = .ok d.lines ∧
      d.messages = (d.lines.map fun line =>
        line.messages.errors.map (fun d => (Severity.error, d)) ++
          line.messages.warnings.map (fun d => (Severity.warning, d)) ++
          line.messages.info.map (fun d => (Severity.info, d))).flatten ∧
      (d.messages.Pairwise fun x y =>
        x.2.range.start < y.2.range.start ∧ x.2.range.stop ≤ y.2.range.start) ∧
      ∀ line ∈ d.lines, line.OneSeverity := by
  have hlines := source.readAll_splitRows text
  refine ⟨⟨text, source.lines (splitRows text), 0, .clean, source⟩, ?_, hlines, rfl, ?_, ?_⟩
  · unfold ofText
    rw [hlines]
    rfl
  · exact source.pairwise_diagnostics 0 (splitRows text)
  · intro line hline
    obtain ⟨⟨row, number⟩, -, rfl⟩ := List.mem_map.1 hline
    exact Line.oneSeverity_read _ _ _

-- A header with text behind it, a rule with two errors, and an unknown keyword.
example : (ofText "Show all\nQuality 500 %\r\n Flavour" ⟨none, { Vocabulary.empty with
      unknownKeywords := .warn }, 0⟩).map (fun d => d.messages.map fun x => (x.1, x.2.range)) =
    .ok [(.warning, .onRow 0 5 8), (.error, .onRow 1 8 11), (.error, .onRow 1 12 13),
      (.warning, .onRow 2 1 8)] := by decide +kernel

end Document

end ItemFilter
