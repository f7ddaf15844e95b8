import ItemFilter.Document
import ItemFilter.Proofs.Splice

/-!
# Sessions of a document

A session is a document with all the passes that were begun on it and all the results that running
them gave. Operations come in any order: passes may be run late or twice, and results may be stale
or be committed again. `Session.lines_after` states what holds after every list of operations: the
committed lines are those of the text and the source of the last commit, they are those of the
current text whenever the document says so, and nothing but an edit that does not fit or a stale
result is ever refused.

What the committed lines lag behind is said by `Document.Tracks`: they are the lines of a base text,
and the pending change, if there is exactly one, relates the base text to the current one. A pass
begun on such a document gives the lines of the text that it captured (`Tracks.run_begin`), at
whatever time it is run. Versions tell which captures are still those of the current text: they
never decrease, and while the version stays the same, so do the text and the source (`Advances`).
-/

namespace ItemFilter

open Text

/-- The rows of a text are 64-bit words. -/
def RowsFit (text : String) : Prop := (splitRows text).length ≤ maxRow + 1

instance (text : String) : Decidable (RowsFit text) :=
  inferInstanceAs (Decidable ((splitRows text).length ≤ maxRow + 1))

/-- A pass that brings its rows up to date runs. -/
theorem Pass.run_eq_ok (p : Pass) {lines : List Line}
    (h : p.source.update p.rows (p.previous.map Prod.fst) (p.previous.map Prod.snd) =
      .ok lines) :
    p.run = .ok ⟨p.version, lines, p.reparsed⟩ := by
  unfold run
  rw [h]
  rfl

namespace Document

/-! ## Single documents -/

/-- The committed lines of a document are those of a base text and source. If the document is clean,
these are the current ones. If one change is pending, it leads from the base text to the current
one. -/
structure Tracks (d : Document) (text : String) (source : Source) : Prop where
  /-- The committed lines are those of the base. -/
  lines_eq : d.lines = source.lines (splitRows text)
  /-- A clean document is its own base. -/
  clean : d.pending = .clean → text = d.text ∧ source = d.source
  /-- A single pending change leads from the base to the current text. -/
  one : ∀ change, d.pending = .one change →
    source = d.source ∧ change.Relates (splitRows text) (splitRows d.text)

/-- Versions do not decrease from one document to a later one, and if the version is the same, so
are the text and the source. -/
def Advances (d d' : Document) : Prop :=
  d.version < d'.version ∨ d'.version = d.version ∧ d'.text = d.text ∧ d'.source = d.source

variable {d : Document} {text : String} {source : Source}

/-- An edit that fits replaces the text, and its change relates the old rows to the new ones. -/
theorem edit_of_cuts {e : Edit} {before removed after : List Char}
    (h : e.Cuts d.text.toList before removed after) :
    ∃ change d', d.edit e = (.ok change, d') ∧ d'.version = d.version + 1 ∧
      d'.source = d.source ∧ d'.lines = d.lines ∧ d'.pending = lagAfter change d.pending ∧
      d'.text = String.ofList (before ++ e.inserted.toList ++ after) ∧
      change.Relates (splitRows d.text) (splitRows d'.text) := by
  have hsplit : e.split? d.text.toList = some (before, removed, after) :=
    Edit.split?_eq_some_iff.2 h
  unfold edit
  rw [hsplit]
  refine ⟨_, _, rfl, rfl, rfl, rfl, rfl, rfl, ?_⟩
  unfold splitRows
  rw [h.text_eq, String.toList_ofList]
  exact (Change.ofParts_relates before removed e.inserted.toList after).map String.ofList

/-- An edit fits and replaces the text, or it is refused and changes nothing. -/
theorem edit_cases (d : Document) (e : Edit) :
    (∃ before removed after, e.Cuts d.text.toList before removed after) ∨
      d.edit e = (.error (e.misuse d.text.toList), d) := by
  cases hsplit : e.split? d.text.toList with
  | none =>
    right
    unfold edit
    rw [hsplit]
  | some parts =>
    obtain ⟨before, removed, after⟩ := parts
    exact .inl ⟨before, removed, after, Edit.split?_eq_some_iff.1 hsplit⟩

/-- Committing a result of the current version makes the document clean with the result's lines. -/
theorem commit_current {parsed : Parsed} (h : parsed.version = d.version) :
    d.commit parsed = (.ok (), { d with lines := parsed.lines, pending := .clean }) :=
  if_pos h

/-- A result of another version is refused, and nothing changes. -/
theorem commit_stale {parsed : Parsed} (h : parsed.version ≠ d.version) :
    d.commit parsed = (.error (.staleResult parsed.version d.version), d) :=
  if_neg h

/-- A pass splices when one change is pending, and reads all rows otherwise. -/
theorem begin_previous (d : Document) :
    (∃ change, d.pending = .one change ∧ d.begin.previous = some (d.lines, change)) ∨
      d.begin.previous = none := by
  unfold begin
  cases d.pending with
  | clean => exact .inr rfl
  | one change => exact .inl ⟨change, rfl, rfl⟩
  | rebuild => exact .inr rfl

/-- The rows that a pass captures fit on one row each. -/
theorem isRow_begin (d : Document) : ∀ row ∈ d.begin.rows, IsRow row :=
  fun _ h => isRow_of_mem_splitRows h

namespace Tracks

/-- A further edit keeps the base. -/
theorem edit (h : d.Tracks text source) {d' : Document} {change : Change}
    (hsource : d'.source = d.source) (hlines : d'.lines = d.lines)
    (hpending : d'.pending = lagAfter change d.pending)
    (hrelates : change.Relates (splitRows d.text) (splitRows d'.text)) :
    d'.Tracks text source where
  lines_eq := hlines.trans h.lines_eq
  clean hclean := by
    rw [hpending] at hclean
    cases hd : d.pending <;> rw [hd] at hclean <;> cases hclean
  one change' hone := by
    rw [hpending] at hone
    cases hd : d.pending with
    | clean =>
      -- The first edit since the commit starts from the base.
      rw [hd] at hone
      cases hone
      obtain ⟨htext, hsrc⟩ := h.clean hd
      rw [hsource, htext]
      exact ⟨hsrc, hrelates⟩
    -- A second edit leaves nothing but a rebuild.
    | one first => rw [hd] at hone; cases hone
    | rebuild => rw [hd] at hone; cases hone

/-- Lines that were committed as those of the current text make it the base. -/
theorem commit {lines : List Line} (h : lines = d.source.lines (splitRows d.text)) :
    Tracks { d with lines, pending := .clean } d.text d.source where
  lines_eq := h
  clean _ := ⟨rfl, rfl⟩
  one _ hone := by cases hone

/-- A new vocabulary keeps the base. -/
theorem setVocabulary (h : d.Tracks text source) (vocabulary : Vocabulary) :
    (d.setVocabulary vocabulary).Tracks text source where
  lines_eq := h.lines_eq
  clean hclean := by cases hclean
  one _ hone := by cases hone

/-- A pass begun now runs, whatever the number of rows. -/
theorem exists_run_begin (h : d.Tracks text source) :
    ∃ lines, d.begin.run = .ok ⟨d.version, lines, d.begin.reparsed⟩ := by
  rcases begin_previous d with ⟨change, hpending, hprevious⟩ | hprevious
  · -- For a splice to succeed, the numbers of the lines have to be right, not their contents.
    obtain ⟨-, hrelates⟩ := h.one change hpending
    have hlen : d.lines.length = (splitRows text).length := by
      rw [h.lines_eq]
      exact source.length_linesFrom 0 _
    obtain ⟨lines, hlines, -⟩ := d.source.update_change_length hlen (isRow_begin d) hrelates
    refine ⟨lines, d.begin.run_eq_ok ?_⟩
    rw [hprevious]
    exact hlines
  · refine ⟨d.source.lines (splitRows d.text), d.begin.run_eq_ok ?_⟩
    rw [hprevious]
    exact d.source.update_none (isRow_begin d)

/-- A pass begun now gives the lines of the current text. -/
theorem run_begin (h : d.Tracks text source) (hfit : RowsFit d.text) :
    d.begin.run = .ok ⟨d.version, d.source.lines (splitRows d.text), d.begin.reparsed⟩ := by
  apply d.begin.run_eq_ok
  rcases begin_previous d with ⟨change, hpending, hprevious⟩ | hprevious
  · obtain ⟨hsource, hrelates⟩ := h.one change hpending
    rw [hprevious, h.lines_eq, hsource]
    exact d.source.update_change (isRow_begin d) hrelates hfit
  · rw [hprevious]
    exact d.source.update_none (isRow_begin d)

end Tracks

/-- Committing what a pass begun now gives succeeds. -/
theorem commit_run_begin {lines : List Line} {reparsed : Nat × Nat} :
    d.commit ⟨d.version, lines, reparsed⟩ =
      (.ok (), { d with lines, pending := .clean }) :=
  commit_current rfl

/-- A refresh succeeds, and makes the document clean with the lines that a pass gives. -/
theorem refresh_of_tracks (h : d.Tracks text source) :
    ∃ lines, d.refresh = (.ok (), { d with lines, pending := .clean }) ∧
      (RowsFit d.text → lines = d.source.lines (splitRows d.text)) := by
  obtain ⟨lines, hrun⟩ := h.exists_run_begin
  refine ⟨lines, ?_, ?_⟩
  · unfold refresh
    rw [hrun]
    exact commit_run_begin
  · intro hfit
    rw [h.run_begin hfit] at hrun
    exact (congrArg Parsed.lines (Except.ok.inj hrun)).symm

/-- Applying an edit that fits succeeds, and makes the edited document clean with the lines that a
pass gives. -/
theorem apply_of_cuts (h : d.Tracks text source) {e : Edit} {before removed after : List Char}
    (hcuts : e.Cuts d.text.toList before removed after) :
    ∃ patch d', d.apply e = (.ok patch, d') ∧ d'.version = d.version + 1 ∧
      d'.text = String.ofList (before ++ e.inserted.toList ++ after) ∧
      (RowsFit d'.text → d'.Tracks d'.text d'.source) := by
  obtain ⟨change, edited, hedit, hversion, hsource, hlines, hpending, htext, hrelates⟩ :=
    edit_of_cuts hcuts
  have htracks := h.edit hsource hlines hpending hrelates
  obtain ⟨lines, hrun⟩ := htracks.exists_run_begin
  refine ⟨⟨edited.version, change, edited.begin.reparsed⟩,
    { edited with lines, pending := .clean }, ?_, hversion, htext, ?_⟩
  · unfold apply
    rw [hedit]
    dsimp only
    rw [hrun]
    dsimp only
    rw [commit_run_begin]
  · intro hfit
    rw [htracks.run_begin hfit] at hrun
    exact Tracks.commit (congrArg Parsed.lines (Except.ok.inj hrun)).symm

/-- Applying an edit that is refused changes nothing. -/
theorem apply_of_refused {e : Edit} (h : d.edit e = (.error (e.misuse d.text.toList), d)) :
    d.apply e = (.error (e.misuse d.text.toList), d) := by
  unfold apply
  rw [h]

/-- A new document is its own base. -/
theorem ofText_eq_ok (text : String) (source : Source) :
    ∃ d, ofText text source = .ok d ∧ d.text = text ∧ d.source = source ∧
      d.Tracks text source := by
  refine ⟨⟨text, source.lines (splitRows text), 0, .clean, source⟩, ?_, rfl, rfl, rfl, ?_, ?_⟩
  · unfold ofText
    rw [source.readAll_splitRows text]
    rfl
  · exact fun _ => ⟨rfl, rfl⟩
  · intro change hone
    cases hone

end Document

/-! ## Sessions -/

/-- What can be done with a document. Passes and results are named by the order in which they came
up. -/
inductive Operation where
  | edit (e : Edit)
  | apply (e : Edit)
  | begin
  /-- Runs a pass that was begun before; it may be run again. -/
  | run (pass : Nat)
  /-- Commits a result that a pass gave; it may be committed again. -/
  | commit (result : Nat)
  | setVocabulary (vocabulary : Vocabulary)
  | refresh
deriving DecidableEq, Repr

/-- A document, the passes begun on it, the results of those that were run, and the text and the
source that it had at its last successful commit. -/
structure Session where
  document : Document
  passes : List Pass
  results : List Parsed
  committedText : String
  committedSource : Source
deriving DecidableEq, Repr

namespace Session

/-- The session of a new document. -/
def start (d : Document) : Session := ⟨d, [], [], d.text, d.source⟩

/-- The session after an operation that commits if it succeeds. -/
def settle {α : Type} (s : Session) (answer : Except Misuse α) (d : Document) : Session :=
  match answer with
  | .ok _ => { s with document := d, committedText := d.text, committedSource := d.source }
  | .error _ => { s with document := d }

/-- Runs a pass and keeps its result. -/
def runPass (s : Session) (pass : Pass) : Except Misuse Unit × Session :=
  match pass.run with
  | .ok parsed => (.ok (), { s with results := s.results ++ [parsed] })
  | .error misuse => (.error misuse, s)

/-- Commits a result. -/
def commitResult (s : Session) (parsed : Parsed) : Except Misuse Unit × Session :=
  ((s.document.commit parsed).1,
    s.settle (s.document.commit parsed).1 (s.document.commit parsed).2)

/-- What an operation answers, and the session that it leaves. A pass or a result that does not
exist is left alone. -/
def perform (s : Session) : Operation → Except Misuse Unit × Session
  | .edit e =>
    ((s.document.edit e).1.map fun _ => (), { s with document := (s.document.edit e).2 })
  | .apply e =>
    ((s.document.apply e).1.map fun _ => (),
      s.settle (s.document.apply e).1 (s.document.apply e).2)
  | .begin => (.ok (), { s with passes := s.passes ++ [s.document.begin] })
  | .run index => (s.passes[index]?).elim (.ok (), s) s.runPass
  | .commit index => (s.results[index]?).elim (.ok (), s) s.commitResult
  | .setVocabulary vocabulary =>
    (.ok (), { s with document := s.document.setVocabulary vocabulary })
  | .refresh =>
    (s.document.refresh.1, s.settle s.document.refresh.1 s.document.refresh.2)

/-- The session after a list of operations. -/
def after (s : Session) (operations : List Operation) : Session :=
  operations.foldl (fun s operation => (s.perform operation).2) s

/-- The rows of every text that the document holds in the course of a list of operations are 64-bit
words. -/
def AllFit (s : Session) : List Operation → Prop
  | [] => RowsFit s.document.text
  | operation :: operations =>
    RowsFit s.document.text ∧ (s.perform operation).2.AllFit operations

instance decidableAllFit : (s : Session) → (operations : List Operation) →
    Decidable (s.AllFit operations)
  | s, [] => inferInstanceAs (Decidable (RowsFit s.document.text))
  | s, operation :: operations =>
    have := decidableAllFit (s.perform operation).2 operations
    inferInstanceAs
      (Decidable (RowsFit s.document.text ∧ (s.perform operation).2.AllFit operations))

end Session

/-- A pass gives the lines of what it captured, and what it captured is current as long as its
version is. -/
structure Pass.SoundFor (p : Pass) (d : Document) : Prop where
  /-- The pass runs, at whatever time. -/
  run_eq : p.run = .ok ⟨p.version, p.source.lines p.rows, p.reparsed⟩
  /-- The pass was begun at this version or before. -/
  version_le : p.version ≤ d.version
  /-- A pass of the current version captured the current text and source. -/
  current : p.version = d.version → p.rows = splitRows d.text ∧ p.source = d.source

/-- A result is that of the current text as long as its version is current. -/
structure Parsed.SoundFor (r : Parsed) (d : Document) : Prop where
  /-- The result belongs to this version or to an earlier one. -/
  version_le : r.version ≤ d.version
  /-- A result of the current version holds the lines of the current text. -/
  current : r.version = d.version → r.lines = d.source.lines (splitRows d.text)

/-- A sound pass stays sound when its document advances. -/
theorem Pass.SoundFor.advance {p : Pass} {d d' : Document} (h : p.SoundFor d)
    (hd : d.Advances d') : p.SoundFor d' := by
  have hle := h.version_le
  rcases hd with hlt | ⟨hversion, htext, hsource⟩
  · exact ⟨h.run_eq, by omega, fun heq => by omega⟩
  · refine ⟨h.run_eq, by omega, fun heq => ?_⟩
    rw [htext, hsource]
    exact h.current (by omega)

/-- A sound result stays sound when its document advances. -/
theorem Parsed.SoundFor.advance {r : Parsed} {d d' : Document} (h : r.SoundFor d)
    (hd : d.Advances d') : r.SoundFor d' := by
  have hle := h.version_le
  rcases hd with hlt | ⟨hversion, htext, hsource⟩
  · exact ⟨by omega, fun heq => by omega⟩
  · refine ⟨by omega, fun heq => ?_⟩
    rw [htext, hsource]
    exact h.current (by omega)

namespace Session

/-- What every operation preserves: the committed lines belong to the text and the source of the
last commit, and all passes and results are sound. -/
structure Sound (s : Session) : Prop where
  /-- The text and the source of the last commit are the base of the document. -/
  tracks : s.document.Tracks s.committedText s.committedSource
  /-- All passes begun so far are sound. -/
  passes : ∀ pass ∈ s.passes, pass.SoundFor s.document
  /-- All results so far are sound. -/
  results : ∀ parsed ∈ s.results, parsed.SoundFor s.document

/-- A sound session stays sound when its document advances. -/
theorem Sound.advance {s : Session} (h : s.Sound) {d : Document} {text : String} {source : Source}
    (hd : s.document.Advances d) (htracks : d.Tracks text source) :
    Sound ⟨d, s.passes, s.results, text, source⟩ where
  tracks := htracks
  passes pass hpass := (h.passes pass hpass).advance hd
  results parsed hparsed := (h.results parsed hparsed).advance hd

/-- The session of a new document is sound. -/
theorem sound_start {d : Document} (h : d.Tracks d.text d.source) : (start d).Sound where
  tracks := h
  passes _ hpass := by cases hpass
  results _ hparsed := by cases hparsed

section Step

variable {s : Session} (h : s.Sound)
include h

/-- The pass that is begun now captures the current rows. -/
theorem Sound.begin (hfit : RowsFit s.document.text) : (s.perform .begin).2.Sound := by
  refine ⟨h.tracks, ?_, h.results⟩
  intro pass hpass
  rcases List.mem_append.1 hpass with hold | hnew
  · exact h.passes pass hold
  · obtain rfl := List.mem_singleton.1 hnew
    exact ⟨h.tracks.run_begin hfit, le_rfl, fun _ => ⟨rfl, rfl⟩⟩

/-- The result of a pass has the pass's version, and is current as long as the pass is. -/
theorem Sound.runPass {pass : Pass} (hpass : pass ∈ s.passes) :
    (s.runPass pass).1 = .ok () ∧ (s.runPass pass).2.Sound := by
  have hsound := h.passes pass hpass
  rw [Session.runPass, hsound.run_eq]
  refine ⟨rfl, h.tracks, h.passes, ?_⟩
  intro parsed hparsed
  rcases List.mem_append.1 hparsed with hold | hnew
  · exact h.results parsed hold
  · obtain rfl := List.mem_singleton.1 hnew
    refine ⟨hsound.version_le, fun hversion => ?_⟩
    obtain ⟨hrows, hsource⟩ := hsound.current hversion
    rw [← hrows, ← hsource]

/-- A result of the current version holds the lines of the current text. Any other is refused. -/
theorem Sound.commitResult {parsed : Parsed} (hparsed : parsed ∈ s.results) :
    ((s.commitResult parsed).1 = .ok () ∨
      (s.commitResult parsed).1 = .error (.staleResult parsed.version s.document.version)) ∧
    (s.commitResult parsed).2.Sound := by
  have hsound := h.results parsed hparsed
  rw [Session.commitResult]
  by_cases hversion : parsed.version = s.document.version
  · rw [Document.commit_current hversion]
    exact ⟨.inl rfl, h.advance (.inr ⟨rfl, rfl, rfl⟩) (.commit (hsound.current hversion))⟩
  · rw [Document.commit_stale hversion]
    exact ⟨.inr rfl, h⟩

/-- Every operation keeps a session sound as long as rows are 64-bit words, and refuses only an edit
that does not fit or a stale result. -/
theorem Sound.perform (operation : Operation) (hfit : RowsFit s.document.text) :
    ((s.perform operation).1 = .ok () ∨
      (∃ e : Edit, (s.perform operation).1 = .error (e.misuse s.document.text.toList)) ∨
      ∃ version, (s.perform operation).1 =
        .error (.staleResult version s.document.version)) ∧
    (RowsFit (s.perform operation).2.document.text → (s.perform operation).2.Sound) := by
  cases operation with
  | edit e =>
    rw [Session.perform]
    rcases s.document.edit_cases e with ⟨before, removed, after, hcuts⟩ | hrefused
    · obtain ⟨change, d, hedit, hversion, hsource, hlines, hpending, -, hrelates⟩ :=
        Document.edit_of_cuts hcuts
      -- The version is a new one, so that all passes and results are stale.
      rw [hedit]
      have hlt : s.document.version < d.version := by omega
      refine ⟨.inl rfl, fun _ => ?_⟩
      exact h.advance (.inl hlt) (h.tracks.edit hsource hlines hpending hrelates)
    · rw [hrefused]
      exact ⟨.inr (.inl ⟨e, rfl⟩), fun _ => h⟩
  | apply e =>
    rw [Session.perform]
    rcases s.document.edit_cases e with ⟨before, removed, after, hcuts⟩ | hrefused
    · obtain ⟨patch, d, happly, hversion, -, htracks⟩ := Document.apply_of_cuts h.tracks hcuts
      rw [happly]
      have hlt : s.document.version < d.version := by omega
      refine ⟨.inl rfl, fun hfit' => ?_⟩
      exact h.advance (.inl hlt) (htracks hfit')
    · rw [Document.apply_of_refused hrefused]
      exact ⟨.inr (.inl ⟨e, rfl⟩), fun _ => h⟩
  | begin => exact ⟨.inl rfl, fun _ => h.begin hfit⟩
  | run index =>
    rw [Session.perform]
    cases hpass : s.passes[index]? with
    | none => exact ⟨.inl rfl, fun _ => h⟩
    | some pass =>
      obtain ⟨hanswer, hsound⟩ := h.runPass (List.mem_of_getElem? hpass)
      exact ⟨.inl hanswer, fun _ => hsound⟩
  | commit index =>
    rw [Session.perform]
    cases hparsed : s.results[index]? with
    | none => exact ⟨.inl rfl, fun _ => h⟩
    | some parsed =>
      obtain ⟨hanswer | hstale, hsound⟩ := h.commitResult (List.mem_of_getElem? hparsed)
      · exact ⟨.inl hanswer, fun _ => hsound⟩
      · exact ⟨.inr (.inr ⟨parsed.version, hstale⟩), fun _ => hsound⟩
  | setVocabulary vocabulary =>
    refine ⟨.inl rfl, fun _ => ?_⟩
    exact h.advance (.inl (Nat.lt_succ_self _)) (h.tracks.setVocabulary vocabulary)
  | refresh =>
    obtain ⟨lines, hrefresh, hlines⟩ := Document.refresh_of_tracks h.tracks
    rw [Session.perform, hrefresh]
    refine ⟨.inl rfl, fun _ => ?_⟩
    exact h.advance (.inr ⟨rfl, rfl, rfl⟩) (.commit (hlines hfit))

end Step

/-- A sound session stays sound through a list of operations. -/
theorem Sound.after {s : Session} (h : s.Sound) (operations : List Operation)
    (hfit : s.AllFit operations) :
    (s.after operations).Sound ∧ RowsFit (s.after operations).document.text := by
  induction operations generalizing s with
  | nil => exact ⟨h, hfit⟩
  | cons operation operations ih =>
    obtain ⟨hfirst, hrest⟩ := hfit
    have hnext : RowsFit (s.perform operation).2.document.text := by
      cases operations with
      | nil => exact hrest
      | cons => exact hrest.1
    exact ih ((h.perform operation hfirst).2 hnext) hrest

/-- What holds after every list of operations on a new document, as long as rows are 64-bit words.
The committed lines are those of the text and the source of the last commit, and those of the
current text and source when the document is current. A refresh, a new pass, every pass begun
before, and every edit that fits succeed, and an edit leaves the text with the inserted one in the
place of the one that it removes, whether it is applied or not. No operation is refused but an edit
that does not fit, or the commit of a stale result. -/
theorem lines_after (text : String) (source : Source) (operations : List Operation) :
    ∃ d, Document.ofText text source = .ok d ∧
      ((start d).AllFit operations →
        let s := (start d).after operations
        s.committedSource.readAll (splitRows s.committedText) = .ok s.document.lines ∧
        (s.document.isCurrent = true →
          s.document.source.readAll (splitRows s.document.text) = .ok s.document.lines) ∧
        (∃ d', s.document.refresh = (.ok (), d')) ∧
        (∃ parsed, s.document.begin.run = .ok parsed) ∧
        (∀ pass ∈ s.passes, ∃ parsed, pass.run = .ok parsed) ∧
        (∀ e before removed after, e.Cuts s.document.text.toList before removed after →
          (∃ change d', s.document.edit e = (.ok change, d') ∧
            d'.text = String.ofList (before ++ e.inserted.toList ++ after)) ∧
          ∃ patch d', s.document.apply e = (.ok patch, d') ∧
            d'.text = String.ofList (before ++ e.inserted.toList ++ after)) ∧
        ∀ operation misuse, (s.perform operation).1 = .error misuse →
          (∃ e : Edit, misuse = e.misuse s.document.text.toList) ∨
            ∃ version, misuse = .staleResult version s.document.version) := by
  obtain ⟨d, hd, htext, hsource, htracks⟩ := Document.ofText_eq_ok text source
  refine ⟨d, hd, fun hfit => ?_⟩
  subst htext hsource
  obtain ⟨hsound, hrows⟩ := (sound_start htracks).after operations hfit
  generalize (start d).after operations = s at hsound hrows
  refine ⟨?_, ?_, ?_, ?_, ?_, ?_, ?_⟩
  · rw [s.committedSource.readAll_splitRows, hsound.tracks.lines_eq]
  · intro hcurrent
    obtain ⟨htext, hsource⟩ := hsound.tracks.clean (by simpa [Document.isCurrent] using hcurrent)
    rw [s.document.source.readAll_splitRows, hsound.tracks.lines_eq, htext, hsource]
  · obtain ⟨lines, hrefresh, -⟩ := Document.refresh_of_tracks hsound.tracks
    exact ⟨_, hrefresh⟩
  · obtain ⟨lines, hrun⟩ := hsound.tracks.exists_run_begin
    exact ⟨_, hrun⟩
  · intro pass hpass
    exact ⟨_, (hsound.passes pass hpass).run_eq⟩
  · intro e before removed after hcuts
    obtain ⟨change, edited, hedit, -, -, -, -, hedited, -⟩ := Document.edit_of_cuts hcuts
    obtain ⟨patch, applied, happly, -, happlied, -⟩ :=
      Document.apply_of_cuts hsound.tracks hcuts
    exact ⟨⟨change, edited, hedit, hedited⟩, patch, applied, happly, happlied⟩
  · intro operation misuse hanswer
    rcases (hsound.perform operation hrows).1 with hok | ⟨e, he⟩ | ⟨version, hstale⟩
    · rw [hok] at hanswer
      cases hanswer
    · rw [he] at hanswer
      exact .inl ⟨e, (Except.error.inj hanswer).symm⟩
    · rw [hstale] at hanswer
      exact .inr ⟨version, (Except.error.inj hanswer).symm⟩

/-- A history in which an edit overtakes a pass, the stale result is refused, a later result is
committed twice and refused after the vocabulary was replaced, and an edit is applied at last. -/
def overtaken : List Operation :=
  [.begin, .edit ⟨4, 5, "\r\n\n"⟩, .run 0, .commit 0, .begin, .run 1, .commit 1, .commit 1,
   .setVocabulary .empty, .commit 1, .refresh, .apply ⟨0, 4, ""⟩]

/-- Lines are right in spite of stale results and results that are committed twice. -/
theorem lines_after_overtaken :
    ∃ d, Document.ofText "Show\nHide" ⟨none, .builtin, 0⟩ = .ok d ∧ (start d).AllFit overtaken ∧
      ((start d).after overtaken).committedSource.readAll
          (splitRows ((start d).after overtaken).committedText) =
        .ok ((start d).after overtaken).document.lines ∧
      (((start d).after overtaken).document.isCurrent = true →
        ((start d).after overtaken).document.source.readAll
            (splitRows ((start d).after overtaken).document.text) =
          .ok ((start d).after overtaken).document.lines) := by
  obtain ⟨d, hd, h⟩ := lines_after "Show\nHide" ⟨none, .builtin, 0⟩ overtaken
  have hfit : (start d).AllFit overtaken := by
    have hnew : Document.ofText "Show\nHide" ⟨none, .builtin, 0⟩ =
        .ok ⟨"Show\nHide", (⟨none, .builtin, 0⟩ : Source).lines (splitRows "Show\nHide"), 0, .clean,
          ⟨none, .builtin, 0⟩⟩ := by
      unfold Document.ofText
      rw [Source.readAll_splitRows]
      rfl
    rw [hnew] at hd
    cases hd
    decide +kernel
  obtain ⟨hcommitted, hcurrent, -⟩ := h hfit
  exact ⟨d, hd, hfit, hcommitted, hcurrent⟩

end Session

end ItemFilter
