import ItemFilter.Document
import ItemFilter.Options
import ItemFilter.Settings.Store

/-!
# Checking files

Every file is read whole and all its diagnostics are printed, one to a line; a summary follows when
all files have been read. The first file that cannot be read ends the check.
-/

namespace ItemFilter

open Files

/-- Why a check came to an end before its time. -/
inductive CheckError where
  /-- The settings cannot be loaded. -/
  | settings (cause : Settings.LoadError)
  /-- The settings that the command line names do not exist. -/
  | missingSettings (path : String)
  /-- A file cannot be read. -/
  | unreadable (path : String) (cause : FileError)
  /-- The lines of a file cannot be put together. -/
  | unparsable (path : String) (cause : Misuse)
deriving DecidableEq, Repr

namespace CheckError

/-- The texts of a failure and of what lies behind it, from the outermost. -/
def chain : CheckError → List String
  | settings cause => [cause.message, cause.cause]
  | missingSettings path => [s!"config file {path} does not exist"]
  | unreadable path cause => [s!"failed to read {path}", cause.message]
  | unparsable path cause => [s!"failed to parse {path}", cause.message]

/-- The outermost text of a failure. -/
def top (e : CheckError) : String := e.chain.headD ""

/-- The text of a failure with all that lies behind it. -/
def message (e : CheckError) : String := ": ".intercalate e.chain

end CheckError

/-- How many files were checked, and what was found. -/
structure Totals where
  files : Nat
  errors : Nat
  warnings : Nat
deriving DecidableEq, Repr

namespace Totals

/-- Nothing checked yet. -/
def zero : Totals := ⟨0, 0, 0⟩

/-- Counts a file with its diagnostics. -/
def count (t : Totals) (found : List (Severity × Diagnostic)) : Totals :=
  { files := t.files + 1
    errors := t.errors + found.countP fun (severity, _) => severity = .error
    warnings := t.warnings + found.countP fun (severity, _) => severity = .warning }

/-- The last line of a report. -/
def summary (t : Totals) : String :=
  s!"{t.files} file(s) checked: {t.errors} error(s), {t.warnings} warning(s)"

/-- Whether the check failed. -/
def failed (t : Totals) (warningsAsErrors : Bool) : Bool :=
  t.errors > 0 || warningsAsErrors && t.warnings > 0

end Totals

/-- What a check printed, line by line, and how it ended. -/
structure Report where
  lines : List String
  /-- The exit code, or why the check came to an end before its time. -/
  result : Except CheckError Nat

namespace Report

/-- All that a check printed. -/
def output (r : Report) : String := String.join (r.lines.map fun line => line ++ "\n")

/-- The line for a diagnostic: where it is, counted from one, how grave it is, and what it is. -/
def entry (path : String) (severity : Severity) (d : Diagnostic) : String :=
  let file := d.file.getD path
  s!"{file}:{d.range.start.row + 1}:{d.range.start.column + 1}: {severity.name}: {d.excerpt}"

/-- The path under which the settings for a check are looked for. -/
def settingsPath (p : Platform) (options : Options) (env : Environment) : String :=
  options.config.getD (Settings.userPath p env)

/-- The paths of all files that a check can read: the settings, the data sets that they name, and
the files to check. -/
def inputs (p : Platform) (options : Options) (env : Environment) (disk : Disk) : List String :=
  let path := settingsPath p options env
  let datasets := match Settings.load p env disk path with
    | .ok (some settings) => settings.datasets.paths
    | _ => []
  path :: datasets ++ options.files

/-- The vocabulary for a check: from the settings that the command line names, which have to exist,
or from the user's own, if there are any. -/
def vocabulary (p : Platform) (options : Options) (env : Environment) (disk : Disk) :
    Except CheckError Vocabulary := do
  let loaded ← (Settings.load p env disk (settingsPath p options env)).mapError .settings
  let settings ← match loaded, options.config with
    | some settings, _ => pure settings
    | none, some path => throw (.missingSettings path)
    | none, none => pure .default
  (settings.vocabulary disk).mapError .settings

/-- The diagnostics of a file. -/
def checkFile (schedule : Nat) (vocabulary : Vocabulary) (disk : Disk) (path : String) :
    Except CheckError (List (Severity × Diagnostic)) := do
  let text ← (disk.read path).mapError (.unreadable path)
  let source : Source := ⟨some path, vocabulary, schedule⟩
  let document ← (Document.ofText text source).mapError (.unparsable path)
  pure document.messages

/-- Checks files one after the other and sums up at the end. -/
def checkFiles (warningsAsErrors : Bool) (schedule : Nat) (vocabulary : Vocabulary)
    (disk : Disk) : Totals → List String → Report
  | totals, [] =>
    { lines := [totals.summary]
      result := .ok (if totals.failed warningsAsErrors then 1 else 0) }
  | totals, path :: paths =>
    match checkFile schedule vocabulary disk path with
    | .error e => { lines := [], result := .error e }
    | .ok found =>
      let rest := checkFiles warningsAsErrors schedule vocabulary disk (totals.count found) paths
      { rest with lines := found.map (fun (severity, d) => entry path severity d) ++ rest.lines }

/-- Runs the check that the command line asks for. -/
def run (p : Platform) (options : Options) (env : Environment) (disk : Disk) : Report :=
  match vocabulary p options env disk with
  | .error e => { lines := [], result := .error e }
  | .ok vocabulary =>
    checkFiles options.warningsAsErrors p.schedule vocabulary disk .zero options.files

end Report

/-- What a program leaves behind. -/
structure Exit where
  code : Nat
  output : String
  errors : String
deriving DecidableEq, Repr

namespace Exit

/-- The whole program: reads the command line and runs the check. -/
def ofCommand (p : Platform) (args : List String) (env : Environment) (disk : Disk) : Exit :=
  match Options.parse args with
  | .error e => ⟨2, "", s!"Error: {e.message}\n{Options.usage}\n"⟩
  | .ok options =>
    let report := Report.run p options env disk
    match report.result with
    | .ok code => ⟨code, report.output, ""⟩
    | .error e => ⟨2, report.output, s!"Error: {e.message}\n"⟩

end Exit

end ItemFilter
