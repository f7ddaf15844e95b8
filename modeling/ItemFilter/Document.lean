import ItemFilter.Listing

/-!
# Documents

A document is a text together with the lines that were last committed for it. Edits change the text
at once; the lines follow in passes. A pass captures all it needs when it is begun, runs on its own,
and its result is committed only if the document is still at the version for which the pass was
begun.

Every operation answers a result and the document that it leaves; an operation that fails leaves the
document as it found it.
-/

namespace ItemFilter

/-- How the committed lines lag behind the text. -/
inductive Pending where
  /-- They do not. -/
  | clean
  /-- There was one edit since. -/
  | one (change : Change)
  /-- All rows have to be read again. -/
  | rebuild
deriving DecidableEq, Repr

/-- A filter that is being edited. -/
structure Document where
  text : String
  /-- The lines committed last. -/
  lines : List Line
  /-- How often the text or the vocabulary was changed. -/
  version : Nat
  pending : Pending
  source : Source
deriving DecidableEq, Repr

/-- All that is needed to bring one version of a document up to date. -/
structure Pass where
  version : Nat
  rows : List String
  /-- The lines and the change for a splice. -/
  previous : Option (List Line × Change)
  source : Source
deriving DecidableEq, Repr

/-- The result of a pass. -/
structure Parsed where
  version : Nat
  lines : List Line
  /-- The first row that was read, and the row behind the last one. -/
  reparsed : Nat × Nat
deriving DecidableEq, Repr

/-- What an applied edit did. -/
structure Patch where
  version : Nat
  change : Change
  reparsed : Nat × Nat
deriving DecidableEq, Repr

namespace Pass

/-- Whether a pass reads only the changed rows. -/
def isIncremental (p : Pass) : Bool := p.previous.isSome

/-- The first row that a pass reads, and the row behind the last one. -/
def reparsed (p : Pass) : Nat × Nat :=
  match p.previous with
  | some (_, change) => change.reparsed
  | none => (0, p.rows.length)

/-- Runs a pass. -/
def run (p : Pass) : Except Misuse Parsed :=
  (p.source.update p.rows (p.previous.map Prod.fst) (p.previous.map Prod.snd)).map fun lines =>
    ⟨p.version, lines, p.reparsed⟩

end Pass

namespace Document

/-- A new document, with all its rows read. -/
def ofText (text : String) (source : Source) : Except Misuse Document :=
  (source.readAll (splitRows text)).map fun lines => ⟨text, lines, 0, .clean, source⟩

/-- How the lines lag behind the text after one more change. -/
def lagAfter (change : Change) : Pending → Pending
  | .clean => .one change
  | .one _ | .rebuild => .rebuild

/-- Changes the text without reading it. -/
def edit (e : Edit) (d : Document) : Except Misuse Change × Document :=
  match e.split? d.text.toList with
  | none => (.error (e.misuse d.text.toList), d)
  | some (before, removed, after) =>
    let inserted := e.inserted.toList
    let change := Change.ofParts before removed inserted after
    (.ok change,
      { d with
        text := String.ofList (before ++ inserted ++ after)
        version := d.version + 1
        pending := lagAfter change d.pending })

/-- Begins a pass over the current text. -/
def begin (d : Document) : Pass :=
  { version := d.version
    rows := splitRows d.text
    previous := match d.pending with
      | .one change => some (d.lines, change)
      | .clean | .rebuild => none
    source := d.source }

/-- Commits the result of a pass if it belongs to the current version. -/
def commit (parsed : Parsed) (d : Document) : Except Misuse Unit × Document :=
  if parsed.version = d.version then (.ok (), { d with lines := parsed.lines, pending := .clean })
  else (.error (.staleResult parsed.version d.version), d)

/-- Changes the text and brings the lines up to date. If the pass fails, the text is put back. -/
def apply (e : Edit) (d : Document) : Except Misuse Patch × Document :=
  match d.edit e with
  | (.error misuse, edited) => (.error misuse, edited)
  | (.ok change, edited) =>
    match edited.begin.run with
    | .error misuse =>
      (.error misuse,
        { edited with text := d.text, version := d.version, pending := d.pending })
    | .ok parsed =>
      match edited.commit parsed with
      | (.error misuse, committed) => (.error misuse, committed)
      | (.ok _, committed) => (.ok ⟨committed.version, change, parsed.reparsed⟩, committed)

/-- Replaces the vocabulary. All rows have to be read again, and passes that were begun before can
no longer be committed. -/
def setVocabulary (vocabulary : Vocabulary) (d : Document) : Document :=
  { d with
    source := { d.source with vocabulary }
    version := d.version + 1
    pending := .rebuild }

/-- Runs a pass and commits its result. -/
def refresh (d : Document) : Except Misuse Unit × Document :=
  match d.begin.run with
  | .error misuse => (.error misuse, d)
  | .ok parsed => d.commit parsed

/-- Whether the committed lines are those of the current text. -/
def isCurrent (d : Document) : Bool := d.pending = .clean

/-- All diagnostics, row by row; errors come first within a row. -/
def messages (d : Document) : List (Severity × Diagnostic) :=
  d.lines.flatMap fun line => line.messages.toList

/-- Whether a committed line is invalid. -/
def hasErrors (d : Document) : Bool := d.lines.any Line.invalid

end Document

end ItemFilter
