import ItemFilter.Platform
import ItemFilter.Settings

/-!
# The format of settings

Settings are a TOML document with the key `unknown_keywords` and the tables `datasets` and
`whitelist`. A data set without a file is left out when they are written.

When they are read, whatever is missing has its default. Other keys do not matter, but their values
have to be readable. A table may also be written as an array of its values in order, where further
values are not read; a date counts as a table without any of the keys; and a policy may be written
as a table whose only key is its name.
-/

namespace ItemFilter.Settings

open Toml

/-- The texts of an array of strings. -/
def stringsOf? : Value → Option (List String)
  | .array items => items.mapM stringOf?
  | _ => none

/-- The value of a key that may be missing. -/
def optional? {α : Type} (decode : Value → Option α) : Option Value → Option (Option α)
  | none => some none
  | some value => (decode value).map some

/-- Whether the values of all keys other than the given ones can be read. -/
def othersReadable (keys : List String) (entries : Entries) : Bool :=
  entries.all fun (key, value) => keys.elem key || value.isReadable

/-- The values of a table in the order of its keys, each of which may be missing. -/
def fieldsOf? (keys : List String) : Value → Option (List (Option Value))
  | .table _ entries =>
    if othersReadable keys entries then some (keys.map fun key => entries.lookup key) else none
  | .array items => some (keys.zipIdx.map fun (_, i) => items[i]?)
  | .tables items =>
    some (keys.zipIdx.map fun (_, i) => items[i]?.map (Value.table .header))
  | .moment _ => some (keys.map fun _ => none)
  | _ => none

/-- Whether a value holds nothing. -/
def isVoid : Value → Bool
  | .table _ [] | .array [] => true
  | _ => false

/-- A policy for unknown keywords. -/
def policyOf? : Value → Option UnknownKeywords
  | .string text => UnknownKeywords.ofName? text
  | .table _ [(name, value)] => if isVoid value then UnknownKeywords.ofName? name else none
  | _ => none

/-- The files of data sets. -/
def datasetsOf? (value : Value) : Option Datasets := do
  match ← fieldsOf? [Dataset.classes.name, Dataset.bases.name, Dataset.sounds.name] value with
  | [classes, bases, sounds] =>
    some ⟨← optional? stringOf? classes, ← optional? stringOf? bases, ← optional? stringOf? sounds⟩
  | _ => none

/-- The names of a white list. -/
def whitelistOf? (value : Value) : Option Whitelist := do
  match ← fieldsOf? [Dataset.classes.name, Dataset.bases.name] value with
  | [classes, bases] =>
    let classes ← optional? stringsOf? classes
    let bases ← optional? stringsOf? bases
    some ⟨classes.getD [], bases.getD []⟩
  | _ => none

/-- The settings in the entries of a document. -/
def ofEntries? (entries : Entries) : Option Settings := do
  match ← fieldsOf? ["unknown_keywords", "datasets", "whitelist"] (.table .header entries) with
  | [policy, datasets, whitelist] =>
    let policy ← optional? policyOf? policy
    let datasets ← optional? datasetsOf? datasets
    let whitelist ← optional? whitelistOf? whitelist
    some ⟨policy.getD .ignore, datasets.getD .none, whitelist.getD .empty⟩
  | _ => none

/-- Reads settings. A document of another shape is refused as one that breaks the rules is. -/
def read (p : Platform) (text : String) : Except String Settings := do
  let entries ← p.readToml text
  (expect (ofEntries? entries)).mapError Fault.message

/-- The entry of a data set that has a file. -/
def datasetEntry (dataset : Dataset) (path : Option String) : Entries :=
  (path.map fun path => (dataset.name, Value.string path)).toList

/-- The table of data sets. -/
def datasetsTable (d : Datasets) : Value :=
  .table .header (datasetEntry .classes d.classes ++ datasetEntry .bases d.bases ++
    datasetEntry .sounds d.sounds)

/-- The table of the white list. -/
def whitelistTable (w : Whitelist) : Value :=
  .table .header [(Dataset.classes.name, .array (w.classes.map .string)),
    (Dataset.bases.name, .array (w.bases.map .string))]

/-- The entries of the document that settings are written as. -/
def entries (s : Settings) : Entries :=
  [("unknown_keywords", .string s.unknownKeywords.name), ("datasets", datasetsTable s.datasets),
    ("whitelist", whitelistTable s.whitelist)]

end ItemFilter.Settings
