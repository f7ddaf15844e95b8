import ItemFilter.Files.Tree
import ItemFilter.Settings.Format
import ItemFilter.Text.Blank

/-!
# Where settings are kept

Settings are loaded from and saved to a file. When they are loaded, the paths of data sets are
expanded. The vocabulary that they describe is the built-in one, in which each data set that has a
file takes the names of that file.
-/

namespace ItemFilter.Settings

open Files

/-- Why settings, or the files that they name, cannot be loaded. -/
inductive LoadError where
  /-- The settings cannot be read. -/
  | unreadable (path : String) (cause : FileError)
  /-- The settings are not in their format. -/
  | malformed (path : String) (cause : String)
  /-- The file of a data set cannot be read. -/
  | unreadableDataset (dataset : Dataset) (path : String) (cause : FileError)
deriving DecidableEq, Repr

namespace LoadError

/-- The text of what lies behind a failure. -/
def cause : LoadError → String
  | unreadable _ cause => cause.message
  | malformed _ cause => cause
  | unreadableDataset _ _ cause => cause.message

/-- The text of a failure, which names its cause. -/
def message : LoadError → String
  | unreadable path cause => s!"Failed to read config file at {path}: {cause.message}"
  | malformed path cause => s!"Failed to parse config file at {path}: {cause}"
  | unreadableDataset dataset path cause =>
    s!"Failed to read {dataset.name} dataset at {path}: {cause.message}"

end LoadError

/-- The path of a user's settings. -/
def userPath (p : Platform) (env : Environment) : String :=
  Path.join (p.expandTilde env "~/.config/filter-lint") "config.toml"

/-- The settings with the paths of data sets expanded. -/
def expandPaths (p : Platform) (env : Environment) (s : Settings) : Settings :=
  { s with datasets := s.datasets.mapPaths (p.expand env) }

/-- Loads the settings under a path, if there is anything under it. -/
def load (p : Platform) (env : Environment) (disk : Disk) (path : String) :
    Except LoadError (Option Settings) :=
  if disk.contains path then
    match disk.read path with
    | .error cause => .error (.unreadable path cause)
    | .ok text =>
      match read p text with
      | .error cause => .error (.malformed path cause)
      | .ok settings => .ok (some (settings.expandPaths p env))
  else .ok none

/-- Saves settings under a path, making directories on the way to it. -/
def save (p : Platform) (s : Settings) (tree : Tree) (path : String) : Except FileError Tree := do
  let tree ← match Path.parent? path with
    | none => pure tree
    | some parent => tree.makeDirectories parent.isAbsolute parent.names
  let text ← (p.writeToml s.entries).mapError .other
  tree.write path text

/-- The names in the text of a data set: one to a line, where blank lines and comments do not
count. -/
def namesOf (text : String) : List String :=
  let lines := (Text.splitAtChar '\n' text.toList).map Text.trim
  (lines.filter fun line => !line.isEmpty && line.head? != some '#').map String.ofList

/-- The names of a data set: those of its file, or the given ones if it has none. -/
def readDataset (disk : Disk) (dataset : Dataset) (builtin : List String) :
    Option String → Except LoadError (List String)
  | none => .ok builtin
  | some path =>
    match disk.read path with
    | .error cause => .error (.unreadableDataset dataset path cause)
    | .ok text => .ok (namesOf text)

/-- The vocabulary that settings describe. -/
def vocabulary (s : Settings) (disk : Disk) : Except LoadError Vocabulary := do
  let builtin := Vocabulary.builtin
  let validClasses ← readDataset disk .classes builtin.validClasses s.datasets.classes
  let validBases ← readDataset disk .bases builtin.validBases s.datasets.bases
  let validSounds ← readDataset disk .sounds builtin.validSounds s.datasets.sounds
  pure {
    validClasses, validBases, validSounds
    classWhitelist := s.whitelist.classes
    baseWhitelist := s.whitelist.bases
    unknownKeywords := s.unknownKeywords }

end ItemFilter.Settings
