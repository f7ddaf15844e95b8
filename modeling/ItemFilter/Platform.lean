import ItemFilter.Settings.Expansion
import ItemFilter.Toml.Reader
import ItemFilter.Toml.Writer

/-!
# The platform

What the library takes from its surroundings. Settings are kept in TOML documents, and the paths in
them are expanded as a shell does; neither the documents nor the expansion are the library's own
business, and the same holds for the schedule of threads. All of them are arguments of whatever
loads or saves settings or checks files, and `Platform.standard` is one choice of them, with which
the command runs.
-/

namespace ItemFilter

/-- The services that loading, saving and checking rely on. -/
structure Platform where
  /-- Reads a TOML document. A failure is a text. -/
  readToml : String → Except String Toml.Entries
  /-- Writes a TOML document. A failure is a text. -/
  writeToml : Toml.Entries → Except String String
  /-- Expands the variables and the leading tilde of a path, if all its variables can be
  resolved. -/
  expand? : Environment → String → Option String
  /-- Expands the leading tilde of a path. -/
  expandTilde : Environment → String → String
  /-- How threads are scheduled. -/
  schedule : Nat

namespace Platform

/-- The expansion of a path that is left as it is if it has none. -/
def expand (p : Platform) (env : Environment) (path : String) : String :=
  (p.expand? env path).getD path

/-- A platform with the library's own reader and writer of TOML and its own expansion. -/
def standard (schedule : Nat) : Platform where
  readToml text := (Toml.parse text).mapError Toml.Fault.message
  writeToml entries :=
    match Toml.write? entries with
    | some text => .ok text
    | none => .error "unsupported value"
  expand? := Expansion.expand?
  expandTilde := Expansion.tilde
  schedule := schedule

end Platform

end ItemFilter
