/-!
# TOML tables

The values of a TOML document, and the rules by which its statements build tables. A table can be
defined by a header, implied by a longer header, made by a dotted key, or written inline, and this
decides who may add to it later: a header may define a table that was only implied, dotted keys may
add to a table made by dotted keys, and an inline table is closed.
-/

namespace ItemFilter.Toml

/-- How a table came about. -/
inductive Origin where
  /-- A header defined it. -/
  | header
  /-- It lies on the path of a header. -/
  | implied
  /-- It lies on the path of a dotted key. -/
  | dotted
  /-- It is written in braces. -/
  | inline
deriving DecidableEq, Repr

/-- A value of a document. -/
inductive Value where
  | string (text : String)
  /-- An integer. It is nothing if its text has no digits of its base, or if it takes more than 128
  bits: such a number may stand where it is not read. -/
  | integer (value : Option Int)
  /-- A floating-point number, by its text, and whether double precision has a value for it. -/
  | float (text : String) (isInRange : Bool)
  | boolean (value : Bool)
  /-- A date, a time or both, by its text. -/
  | moment (text : String)
  | array (items : List Value)
  | table (origin : Origin) (entries : List (String × Value))
  /-- The tables that the headers in double brackets with one name add up to. -/
  | tables (items : List (List (String × Value)))
deriving Repr

mutual

/-- Whether every number in a value can be read. -/
def Value.isReadable : Value → Bool
  | .integer value => value.isSome
  | .float _ isInRange => isInRange
  | .array items => Value.areReadable items
  | .table _ entries => Value.haveReadable entries
  | .tables items => Value.allReadable items
  | .string _ | .boolean _ | .moment _ => true

/-- Whether every number in the items of an array can be read. -/
def Value.areReadable : List Value → Bool
  | [] => true
  | value :: values => value.isReadable && Value.areReadable values

/-- Whether every number in the entries of a table can be read. -/
def Value.haveReadable : List (String × Value) → Bool
  | [] => true
  | (_, value) :: entries => value.isReadable && Value.haveReadable entries

/-- Whether every number in a list of tables can be read. -/
def Value.allReadable : List (List (String × Value)) → Bool
  | [] => true
  | entries :: items => Value.haveReadable entries && Value.allReadable items

end

/-- The entries of a table, in the order of their definition. -/
abbrev Entries := List (String × Value)

namespace Entries

/-- Replaces the value of a key. -/
def replace (entries : Entries) (key : String) (value : Value) : Entries :=
  entries.map fun (k, v) => if k = key then (k, value) else (k, v)

/-- Changes the table under a key. A missing table is made with the origin of the route, `implied`
for headers and `dotted` for dotted keys. Of the tables of a repeated header, the last one is meant.
Inline tables, arrays and plain values are closed, and so is for a dotted key a table that a header
defined. -/
def inside (route : Origin) (key : String) (f : Origin → Entries → Option Entries)
    (entries : Entries) : Option Entries :=
  match entries.lookup key with
  | none => (f route []).map fun inner => entries ++ [(key, .table route inner)]
  | some (.table origin inner) =>
    if origin = .inline ∨ route = .dotted ∧ origin = .header then none
    else (f origin inner).map fun inner => entries.replace key (.table origin inner)
  | some (.tables items) =>
    match items.getLast? with
    | none => none
    | some last =>
      (f .header last).map fun inner => entries.replace key (.tables (items.dropLast ++ [inner]))
  | some _ => none

/-- Changes the table at the end of a path. -/
def follow (route : Origin) (f : Origin → Entries → Option Entries) :
    List String → Origin → Entries → Option Entries
  | [] => f
  | key :: path => fun _ entries => entries.inside route key (follow route f path)

/-- Adds a new entry. Behind a dotted key, the table has to be one that dotted keys made. -/
def add (isDotted : Bool) (key : String) (value : Value) (origin : Origin) (entries : Entries) :
    Option Entries :=
  if isDotted = decide (origin = .dotted) ∧ (entries.lookup key).isNone then
    some (entries ++ [(key, value)])
  else none

/-- Assigns a value to a dotted key within a table. -/
def assign (path : List String) (value : Value) (origin : Origin) (entries : Entries) :
    Option Entries :=
  match path.getLast? with
  | none => none
  | some key =>
    let path := path.dropLast
    follow .dotted (add (!path.isEmpty) key value) path origin entries

/-- Defines the table named by a header, which may not be defined yet. -/
def define (key : String) (_ : Origin) (entries : Entries) : Option Entries :=
  match entries.lookup key with
  | none => some (entries ++ [(key, .table .header [])])
  | some (.table .implied inner) => some (entries.replace key (.table .header inner))
  | some _ => none

/-- Starts one more of the tables named by a header in double brackets. -/
def extend (key : String) (_ : Origin) (entries : Entries) : Option Entries :=
  match entries.lookup key with
  | none => some (entries ++ [(key, .tables [[]])])
  | some (.tables items) => some (entries.replace key (.tables (items ++ [[]])))
  | some _ => none

end Entries

/-- A statement of a document, with dotted keys and values of any kind. -/
inductive Statement (Path Content : Type) where
  /-- An assignment, `path = value`. -/
  | assign (path : Path) (value : Content)
  /-- A header, `[path]`. -/
  | table (path : Path)
  /-- A header that may be repeated, `[[path]]`. -/
  | tables (path : Path)
deriving Repr

/-- A document that is being built: the path of the last header, and all entries. -/
structure Builder where
  header : List String
  entries : Entries
deriving Repr

namespace Builder

/-- The builder before the first statement. -/
def empty : Builder := ⟨[], []⟩

/-- Follows a header: changes the table that holds the last key of its path. -/
def open? (b : Builder) (path : List String)
    (f : String → Origin → Entries → Option Entries) : Option Builder :=
  match path.getLast? with
  | none => none
  | some key =>
    (Entries.follow .implied (f key) path.dropLast .header b.entries).map fun entries =>
      ⟨path, entries⟩

/-- Adds a statement, if the rules for tables allow it. -/
def add? (b : Builder) : Statement (List String) Value → Option Builder
  | .assign path value =>
    (Entries.follow .implied (Entries.assign path value) b.header .header b.entries).map
      fun entries => { b with entries }
  | .table path => b.open? path Entries.define
  | .tables path => b.open? path Entries.extend

end Builder

end ItemFilter.Toml
