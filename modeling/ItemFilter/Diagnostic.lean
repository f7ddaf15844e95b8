import ItemFilter.Position

/-!
# Diagnostics

What is said about a row: a short text, where it applies, and possibly an explanation and a way to
mend it. The diagnostics of a row are kept apart by severity.
-/

namespace ItemFilter

/-- How grave a diagnostic is. -/
inductive Severity where
  | error
  | warning
  | info
deriving DecidableEq, Repr

namespace Severity

/-- The name of a severity. -/
def name : Severity → String
  | error => "error"
  | warning => "warning"
  | info => "info"

end Severity

/-- A proposal to replace the text in the range of a diagnostic. -/
structure Solution where
  /-- The text to be replaced, if it is known. -/
  current : Option String
  /-- The text to put in its place. -/
  replacement : String
deriving DecidableEq, Repr

/-- A remark on a stretch of a row. -/
structure Diagnostic where
  /-- What is wrong, in one line. -/
  excerpt : String
  /-- A longer explanation. -/
  description : Option String
  /-- The file that holds the row. -/
  file : Option String
  /-- A page with more about it. No diagnostic of a row has one yet. -/
  url : Option String
  /-- Where the remark applies. -/
  range : Range
  /-- A way to mend it. -/
  solution : Option Solution
deriving DecidableEq, Repr

/-- The diagnostics of one row, each severity in the order of reporting. -/
structure Messages where
  errors : List Diagnostic
  warnings : List Diagnostic
  info : List Diagnostic
deriving DecidableEq, Repr

namespace Messages

/-- No diagnostics. -/
def none : Messages := ⟨[], [], []⟩

/-- Adds a diagnostic behind those of its severity. -/
def push (m : Messages) : Severity → Diagnostic → Messages
  | .error, d => { m with errors := m.errors ++ [d] }
  | .warning, d => { m with warnings := m.warnings ++ [d] }
  | .info, d => { m with info := m.info ++ [d] }

/-- Whether there is no diagnostic. -/
def isEmpty (m : Messages) : Bool := m.errors.isEmpty && m.warnings.isEmpty && m.info.isEmpty

/-- Whether there is an error. -/
def hasErrors (m : Messages) : Bool := !m.errors.isEmpty

/-- The number of diagnostics. -/
def size (m : Messages) : Nat := m.errors.length + m.warnings.length + m.info.length

/-- All diagnostics with their severities: errors, then warnings, then information. -/
def toList (m : Messages) : List (Severity × Diagnostic) :=
  m.errors.map (Severity.error, ·) ++ m.warnings.map (Severity.warning, ·) ++
    m.info.map (Severity.info, ·)

end Messages

end ItemFilter
