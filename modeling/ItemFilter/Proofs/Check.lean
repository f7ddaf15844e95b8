import ItemFilter.Proofs.Reports
import ItemFilter.Report

/-!
# What a check prints

A check goes through its files until one of them cannot be read. Each file that was read is known by
its path and its diagnostics, which are those of all its rows (`Report.Checked`). The files that
were checked so far decide everything that the check has to carry along: the totals are theirs
(`Totals.count_ofChecked`), and so are the lines that were printed and whether the check fails
(`Totals.failed_ofChecked`). The induction over the files is therefore carried by the list of
checked files (`Report.checkFiles_covers`), and the whole check starts from the empty one
(`Report.run_covers`). What is printed is each line of the report, ended by a line feed
(`Report.toList_output`).

Since the rows of a text never hold a line break, no file is refused for what it holds
(`Report.checkFile_of_read`).
-/

namespace ItemFilter

open Files

/-- A new document has the diagnostics of all its rows. -/
theorem Document.messages_ofText (text : String) (source : Source) :
    ∃ d, ofText text source = .ok d ∧ d.messages = source.diagnosticsFrom 0 (splitRows text) := by
  refine ⟨⟨text, source.lines (splitRows text), 0, .clean, source⟩, ?_, rfl⟩
  unfold ofText
  rw [source.readAll_splitRows text]
  rfl

namespace Report

/-- How many diagnostics of a severity there are in files that were checked. -/
def number (checked : List (String × List (Severity × Diagnostic))) (severity : Severity) : Nat :=
  (checked.flatMap Prod.snd).countP fun x => x.1 = severity

/-- The line that sums up files that were checked. -/
def summed (checked : List (String × List (Severity × Diagnostic))) : String :=
  let errors := number checked .error
  let warnings := number checked .warning
  s!"{checked.length} file(s) checked: {errors} error(s), {warnings} warning(s)"

/-- Something was found that makes a check fail: an error, or a warning if warnings count as
errors. -/
def Fails (warningsAsErrors : Bool) (checked : List (String × List (Severity × Diagnostic))) :
    Prop :=
  ∃ x ∈ checked.flatMap Prod.snd, x.1 = .error ∨ warningsAsErrors = true ∧ x.1 = .warning

instance (warningsAsErrors : Bool) (checked : List (String × List (Severity × Diagnostic))) :
    Decidable (Fails warningsAsErrors checked) :=
  inferInstanceAs (Decidable (∃ x ∈ checked.flatMap Prod.snd, _))

end Report

/-- The totals of files that were checked. -/
def Totals.ofChecked (checked : List (String × List (Severity × Diagnostic))) : Totals where
  files := checked.length
  errors := Report.number checked .error
  warnings := Report.number checked .warning

/-- Counting a further file. -/
theorem Totals.count_ofChecked (checked : List (String × List (Severity × Diagnostic)))
    (path : String) (found : List (Severity × Diagnostic)) :
    (ofChecked checked).count found = ofChecked (checked ++ [(path, found)]) := by
  simp [ofChecked, count, Report.number]

/-- The totals decide whether a check fails. -/
theorem Totals.failed_ofChecked (warningsAsErrors : Bool)
    (checked : List (String × List (Severity × Diagnostic))) :
    (ofChecked checked).failed warningsAsErrors = true ↔
      Report.Fails warningsAsErrors checked := by
  have hpos (severity : Severity) : Report.number checked severity > 0 ↔
      ∃ x ∈ checked.flatMap Prod.snd, x.1 = severity := by
    unfold Report.number
    simp only [gt_iff_lt, List.countP_pos_iff, decide_eq_true_eq]
  simp only [failed, ofChecked, Bool.or_eq_true, Bool.and_eq_true, decide_eq_true_eq, hpos]
  constructor
  · rintro (⟨x, hx, herror⟩ | ⟨hcounts, x, hx, hwarning⟩)
    · exact ⟨x, hx, .inl herror⟩
    · exact ⟨x, hx, .inr ⟨hcounts, hwarning⟩⟩
  · rintro ⟨x, hx, herror | ⟨hcounts, hwarning⟩⟩
    · exact .inl ⟨x, hx, herror⟩
    · exact .inr ⟨hcounts, x, hx, hwarning⟩

namespace Report

/-- The line for a diagnostic of a file, with the row and the column counted from one. -/
def located (path : String) : Severity × Diagnostic → String
  | (severity, d) =>
    s!"{path}:{d.range.start.row + 1}:{d.range.start.column + 1}: {severity.name}: {d.excerpt}"

/-- The lines for all diagnostics of files that were checked. -/
def entries (checked : List (String × List (Severity × Diagnostic))) : List String :=
  checked.flatMap fun (path, found) => found.map (located path)

/-- The files in front of the first one that cannot be read as text. -/
def readable (disk : Disk) (files : List String) : List String :=
  files.takeWhile fun path => (disk.read path).isOk

/-- What was found in a file is all there is to be said about its rows. -/
structure Checked (vocabulary : Vocabulary) (disk : Disk) (path : String)
    (found : List (Severity × Diagnostic)) : Prop where
  /-- The file holds a text, all of whose rows are read, however threads are scheduled, and these
  are their diagnostics. -/
  full : ∃ text lines, disk.read path = .ok text ∧
    (∀ schedule, (⟨some path, vocabulary, schedule⟩ : Source).readAll (splitRows text) =
      .ok lines) ∧
    found = lines.flatMap fun line => line.messages.toList
  /-- The diagnostics come from row to row, and on each row from left to right. -/
  ordered : found.Pairwise fun x y => x.2.Precedes y.2

/-- A report of a check that is carried on behind files that were checked before: it is about the
files in front of the first one that cannot be read, and sums up all of them if there is none. -/
structure Covers (warningsAsErrors : Bool) (vocabulary : Vocabulary) (disk : Disk)
    (before : List (String × List (Severity × Diagnostic))) (files : List String)
    (checked : List (String × List (Severity × Diagnostic))) (report : Report) : Prop where
  /-- The checked files are those in front of the first one that cannot be read. -/
  paths : checked.map Prod.fst = readable disk files
  /-- Each of them is checked completely. -/
  complete : ∀ x ∈ checked, Checked vocabulary disk x.1 x.2
  /-- If there is a file that cannot be read, it is named, and nothing is summed up. -/
  stopped : checked.length < files.length → ∃ path cause,
    files[checked.length]? = some path ∧ disk.read path = .error cause ∧
    report = ⟨entries checked, .error (.unreadable path cause)⟩
  /-- If all files were read, they are summed up. -/
  finished : checked.length = files.length →
    report = ⟨entries checked ++ [summed (before ++ checked)],
      .ok (if Fails warningsAsErrors (before ++ checked) then 1 else 0)⟩
  /-- Each line of the report is printed, and a line feed behind it. -/
  output_eq : report.output.toList = report.lines.flatMap fun line => line.toList ++ ['\n']

/-- Each line of a report is printed, and a line feed behind it. -/
theorem toList_output (report : Report) :
    report.output.toList = report.lines.flatMap fun line => line.toList ++ ['\n'] := by
  have hjoin (lines : List String) :
      (String.join (lines.map fun line => line ++ "\n")).toList =
        lines.flatMap fun line => line.toList ++ ['\n'] := by
    induction lines with
    | nil => rfl
    | cons line lines ih => simp [ih]
  exact hjoin report.lines

variable {disk : Disk} {path : String}

/-- A file that cannot be read ends the check. -/
theorem checkFile_of_unread {cause : FileError} (h : disk.read path = .error cause)
    (schedule : Nat) (vocabulary : Vocabulary) :
    checkFile schedule vocabulary disk path = .error (.unreadable path cause) := by
  unfold checkFile
  rw [h]
  rfl

/-- A file that holds a text is checked, whatever the text is. -/
theorem checkFile_of_read {text : String} (h : disk.read path = .ok text) (schedule : Nat)
    (vocabulary : Vocabulary) : checkFile schedule vocabulary disk path =
      .ok ((⟨some path, vocabulary, schedule⟩ : Source).diagnosticsFrom 0 (splitRows text)) := by
  obtain ⟨document, hdocument, hmessages⟩ :=
    Document.messages_ofText text ⟨some path, vocabulary, schedule⟩
  unfold checkFile
  rw [h]
  show (Document.ofText text ⟨some path, vocabulary, schedule⟩).mapError
    (CheckError.unparsable path) >>= _ = _
  rw [hdocument, ← hmessages]
  rfl

/-- The diagnostics of a text are all there is to be said about it. -/
theorem checked_of_read {text : String} (h : disk.read path = .ok text) (schedule : Nat)
    (vocabulary : Vocabulary) : Checked vocabulary disk path
      ((⟨some path, vocabulary, schedule⟩ : Source).diagnosticsFrom 0 (splitRows text)) where
  full := ⟨text, _, h, fun _ => Source.readAll_splitRows _ text, rfl⟩
  ordered := Source.pairwise_diagnostics _ 0 (splitRows text)

/-- The diagnostics of a file are printed with its own path. -/
theorem map_entry_diagnostics (path : String) (vocabulary : Vocabulary) (schedule : Nat)
    (texts : List String) :
    ((⟨some path, vocabulary, schedule⟩ : Source).diagnosticsFrom 0 texts).map
        (fun (severity, d) => entry path severity d) =
      ((⟨some path, vocabulary, schedule⟩ : Source).diagnosticsFrom 0 texts).map
          (located path) := by
  refine List.map_congr_left fun x hx => ?_
  have hfile : x.2.file = some path := (Source.mem_diagnosticsFrom _ hx).1
  show entry path x.1 x.2 = located path x
  unfold entry
  rw [hfile]
  rfl

/-- Checking files behind others. -/
theorem checkFiles_covers (warningsAsErrors : Bool) (schedule : Nat) (vocabulary : Vocabulary)
    (disk : Disk) (before : List (String × List (Severity × Diagnostic))) (files : List String) :
    ∃ checked, Covers warningsAsErrors vocabulary disk before files checked
      (checkFiles warningsAsErrors schedule vocabulary disk (.ofChecked before) files) := by
  induction files generalizing before with
  | nil =>
    refine ⟨[], rfl, nofun, fun hlt => absurd hlt (Nat.lt_irrefl 0), fun _ => ?_,
      toList_output _⟩
    unfold checkFiles
    simp only [Totals.failed_ofChecked, List.append_nil]
    rfl
  | cons path files ih =>
    cases hread : disk.read path with
    | error cause =>
      -- The check ends here, with nothing checked.
      refine ⟨[], ?_, nofun, fun _ => ⟨path, cause, rfl, hread, ?_⟩, nofun, toList_output _⟩
      · unfold readable
        rw [List.takeWhile_cons_of_neg (by rw [hread]; nofun)]
        rfl
      · unfold checkFiles
        rw [checkFile_of_unread hread]
        rfl
    | ok text =>
      -- The file is counted, and the others are checked behind it.
      have hfile := checkFile_of_read hread schedule vocabulary
      have hlines := map_entry_diagnostics path vocabulary schedule (splitRows text)
      have hchecked := checked_of_read hread schedule vocabulary
      generalize (⟨some path, vocabulary, schedule⟩ : Source).diagnosticsFrom 0
        (splitRows text) = found at hfile hlines hchecked
      obtain ⟨checked, hpaths, hcomplete, hstopped, hfinished, -⟩ :=
        ih (before ++ [(path, found)])
      have hreport : checkFiles warningsAsErrors schedule vocabulary disk (.ofChecked before)
          (path :: files) =
          { checkFiles warningsAsErrors schedule vocabulary disk
              (.ofChecked (before ++ [(path, found)])) files with
            lines := found.map (located path) ++ (checkFiles warningsAsErrors schedule vocabulary
              disk (.ofChecked (before ++ [(path, found)])) files).lines } := by
        rw [checkFiles, hfile]
        dsimp only
        rw [Totals.count_ofChecked, hlines]
      refine ⟨(path, found) :: checked, ?_, List.forall_mem_cons.2 ⟨hchecked, hcomplete⟩, ?_, ?_,
        toList_output _⟩
      · unfold readable
        rw [List.takeWhile_cons_of_pos (by rw [hread]; rfl), List.map_cons, hpaths]
        rfl
      · intro hlt
        obtain ⟨unread, cause, hget, hcause, hrest⟩ := hstopped (Nat.lt_of_succ_lt_succ hlt)
        refine ⟨unread, cause, hget, hcause, ?_⟩
        rw [hreport, hrest]
        rfl
      · intro hlength
        rw [hreport, hfinished (Nat.succ.inj hlength), List.append_assoc]
        simp [entries]

end Report

end ItemFilter
