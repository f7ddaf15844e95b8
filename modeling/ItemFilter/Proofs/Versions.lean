import ItemFilter.Proofs.Session
import ItemFilter.Proofs.Update

/-!
# Versions and refusals

What the operations of a document do in every state, whether its lines are those of its text or were
made up and committed by hand. An operation that is refused leaves the document as it found it
(`Document.unchanged_of_error`), also where it has changed the document before it is refused:
applying an edit puts everything back that the edit replaced (`Document.apply_result`).

A version is therefore the number of changes that succeeded (`Session.version_along`), and the
result of a pass can be committed exactly as long as no change succeeded since the pass was begun
(`Session.commit_along_iff`), whatever else was done in the meantime.
-/

namespace ItemFilter

/-! ## What can be wrong with bringing lines up to date -/

/-- A misuse other than the commit of a stale result. -/
def Misuse.NotStale (misuse : Misuse) : Prop := ∀ pass current, misuse ≠ .staleResult pass current

namespace Source

variable {source : Source} {current : List String} {misuse : Misuse}

/-- Reading all rows is not refused because of a version. -/
theorem readAll_notStale (h : source.readAll current = .error misuse) : misuse.NotStale := by
  rcases source.readAll_cases current with ⟨-, hread⟩ | ⟨row, -, -, hread⟩
  · rw [hread] at h
    cases h
  · obtain rfl : Misuse.lineBreak row = misuse := Except.error.inj (hread.symm.trans h)
    exact nofun

/-- Bringing lines up to date is not refused because of a version. -/
theorem update_notStale {previous : Option (List Line)} {change : Option Change}
    (h : source.update current previous change = .error misuse) : misuse.NotStale := by
  match previous, change with
  | none, change => exact readAll_notStale (source.update_eq_readAll (.inl rfl) ▸ h)
  | some previous, none => exact readAll_notStale (source.update_eq_readAll (.inr rfl) ▸ h)
  | some previous, some change =>
    -- The change, a row and the number of lines are all that can be refused.
    rcases source.update_change_cases current previous change with
      ⟨-, hupdate⟩ | ⟨-, row, -, hupdate⟩ | ⟨-, -, -, hupdate⟩ | ⟨-, -, -, hupdate⟩
    · obtain rfl := Except.error.inj (hupdate.symm.trans h)
      exact nofun
    · obtain rfl := Except.error.inj (hupdate.symm.trans h)
      exact nofun
    · obtain rfl := Except.error.inj (hupdate.symm.trans h)
      exact nofun
    · rw [hupdate] at h
      cases h

end Source

namespace Pass

/-- A result has the version of its pass. -/
theorem version_of_run {p : Pass} {parsed : Parsed} (h : p.run = .ok parsed) :
    parsed.version = p.version := by
  unfold run at h
  cases hupdate : p.source.update p.rows (p.previous.map Prod.fst) (p.previous.map Prod.snd) with
  | error misuse => rw [hupdate] at h; cases h
  | ok lines => rw [hupdate] at h; cases h; rfl

/-- A pass is not refused because of its version. -/
theorem run_notStale {p : Pass} {misuse : Misuse} (h : p.run = .error misuse) :
    misuse.NotStale := by
  unfold run at h
  cases hupdate : p.source.update p.rows (p.previous.map Prod.fst) (p.previous.map Prod.snd) with
  | error misuse' =>
    rw [hupdate] at h
    obtain rfl : misuse' = misuse := Except.error.inj h
    exact Source.update_notStale hupdate
  | ok lines => rw [hupdate] at h; cases h

end Pass

/-! ## Operations on any document -/

namespace Document

/-- An edit is refused and changes nothing, or it replaces the text and counts as a change. -/
theorem edit_result (d : Document) (e : Edit) :
    d.edit e = (.error (e.misuse d.text.toList), d) ∨
      ∃ change text, d.edit e = (.ok change,
        { d with text, version := d.version + 1, pending := lagAfter change d.pending }) := by
  rcases d.edit_cases e with ⟨before, removed, after, hcuts⟩ | hrefused
  · right
    unfold edit
    rw [Edit.split?_eq_some_iff.2 hcuts]
    exact ⟨_, _, rfl⟩
  · exact .inl hrefused

/-- A commit is refused for its version and changes nothing, or it keeps the version. -/
theorem commit_result (d : Document) (parsed : Parsed) :
    d.commit parsed = (.error (.staleResult parsed.version d.version), d) ∨
      ∃ d', d.commit parsed = (.ok (), d') ∧ d'.version = d.version := by
  by_cases hversion : parsed.version = d.version
  · exact .inr ⟨_, commit_current hversion, rfl⟩
  · exact .inl (commit_stale hversion)

/-- Applying an edit is refused and changes nothing, or it counts as one change. It is never refused
because of its version. -/
theorem apply_result (d : Document) (e : Edit) :
    (∃ misuse, d.apply e = (.error misuse, d) ∧ misuse.NotStale) ∨
      ∃ patch d', d.apply e = (.ok patch, d') ∧ d'.version = d.version + 1 := by
  rcases d.edit_result e with hrefused | ⟨change, text, hedit⟩
  · exact .inl ⟨_, apply_of_refused hrefused, nofun⟩
  · generalize hedited :
      { d with text, version := d.version + 1, pending := lagAfter change d.pending } = edited
      at hedit
    have hversion : edited.version = d.version + 1 := by rw [← hedited]
    -- What the edit replaced is put back if the pass fails; it replaced nothing else.
    have hback :
        { edited with text := d.text, version := d.version, pending := d.pending } = d := by
      rw [← hedited]
    unfold apply
    rw [hedit]
    dsimp only
    cases hrun : edited.begin.run with
    | error misuse => exact .inl ⟨misuse, congrArg _ hback, Pass.run_notStale hrun⟩
    | ok parsed =>
      -- The pass was begun on the edited document, so that its result is not stale.
      have hcurrent : parsed.version = edited.version := Pass.version_of_run hrun
      dsimp only
      rw [commit_current hcurrent]
      exact .inr ⟨_, _, rfl, hversion⟩

/-- A refresh is refused and changes nothing, or it keeps the version. -/
theorem refresh_result (d : Document) :
    (∃ misuse, d.refresh = (.error misuse, d)) ∨
      ∃ d', d.refresh = (.ok (), d') ∧ d'.version = d.version := by
  unfold refresh
  cases hrun : d.begin.run with
  | error misuse => exact .inl ⟨misuse, rfl⟩
  | ok parsed =>
    have hcurrent : parsed.version = d.version := Pass.version_of_run hrun
    exact .inr ⟨_, commit_current hcurrent, rfl⟩

/-- An operation that is refused leaves the document as it found it: its text, its lines, its
version, what is pending, its file and its vocabulary. This holds in every state, also where the
lines are not those of any text. Applying an edit is never refused because of a version. -/
theorem unchanged_of_error (d : Document) :
    (∀ e misuse d', d.edit e = (.error misuse, d') → d' = d) ∧
      (∀ e misuse d', d.apply e = (.error misuse, d') →
        d' = d ∧ ∀ pass current, misuse ≠ .staleResult pass current) ∧
      (∀ parsed misuse d', d.commit parsed = (.error misuse, d') → d' = d) ∧
      ∀ misuse d', d.refresh = (.error misuse, d') → d' = d := by
  refine ⟨?_, ?_, ?_, ?_⟩
  · intro e misuse d' h
    rcases d.edit_result e with hrefused | ⟨change, text, hedit⟩
    · rw [hrefused] at h
      exact (Prod.mk.inj h).2.symm
    · rw [hedit] at h
      cases (Prod.mk.inj h).1
  · intro e misuse d' h
    rcases d.apply_result e with ⟨misuse', hrefused, hnotStale⟩ | ⟨patch, d'', happly, -⟩
    · rw [hrefused] at h
      obtain ⟨hmisuse, hd⟩ := Prod.mk.inj h
      exact ⟨hd.symm, Except.error.inj hmisuse ▸ hnotStale⟩
    · rw [happly] at h
      cases (Prod.mk.inj h).1
  · intro parsed misuse d' h
    rcases d.commit_result parsed with hrefused | ⟨d'', hcommit, -⟩
    · rw [hrefused] at h
      exact (Prod.mk.inj h).2.symm
    · rw [hcommit] at h
      cases (Prod.mk.inj h).1
  · intro misuse d' h
    rcases d.refresh_result with ⟨misuse', hrefused⟩ | ⟨d'', hrefresh, -⟩
    · rw [hrefused] at h
      exact (Prod.mk.inj h).2.symm
    · rw [hrefresh] at h
      cases (Prod.mk.inj h).1

/-- A document of two rows for which no lines at all were committed by hand. -/
def forged : Document := ⟨"Show\nHide", [], 3, .clean, ⟨none, .builtin, 0⟩⟩

/-- The forged document with one row edited: a splice is due, for which it lacks the lines. -/
def forgedEdited : Document := (forged.edit ⟨0, 4, "Hide"⟩).2

/-- All four operations can be refused. Applying an edit to the forged document is refused after the
edit was made, and the text, the version and what was pending are those from before. -/
theorem unchanged_of_error_forged :
    forged.edit ⟨3, 99, ""⟩ = (.error (.editOutOfBounds 3 99 9), forged) ∧
      forged.apply ⟨4, 5, "\n\n"⟩ = (.error (.changeOutOfBounds 0 1 2 0 3), forged) ∧
      forged.commit ⟨2, [], (0, 2)⟩ = (.error (.staleResult 2 3), forged) ∧
      forgedEdited.refresh = (.error (.changeOutOfBounds 0 0 0 0 2), forgedEdited) := by
  obtain ⟨hedit, happly, hcommit, -⟩ := unchanged_of_error forged
  have hrefresh := (unchanged_of_error forgedEdited).2.2.2
  have hedit' : (forged.edit ⟨3, 99, ""⟩).1 = .error (.editOutOfBounds 3 99 9) := by
    decide +kernel
  have happly' : (forged.apply ⟨4, 5, "\n\n"⟩).1 = .error (.changeOutOfBounds 0 1 2 0 3) := by
    decide +kernel
  have hcommit' : (forged.commit ⟨2, [], (0, 2)⟩).1 = .error (.staleResult 2 3) := by
    decide +kernel
  have hrefresh' : forgedEdited.refresh.1 = .error (.changeOutOfBounds 0 0 0 0 2) := by
    decide +kernel
  refine ⟨Prod.ext hedit' ?_, Prod.ext happly' ?_, Prod.ext hcommit' ?_, Prod.ext hrefresh' ?_⟩
  · exact hedit _ _ _ (Prod.ext hedit' rfl)
  · exact (happly _ _ _ (Prod.ext happly' rfl)).1
  · exact hcommit _ _ _ (Prod.ext hcommit' rfl)
  · exact hrefresh _ _ (Prod.ext hrefresh' rfl)

end Document

/-! ## Versions in the course of a session -/

/-- What can be done with a document by those who also make results by hand: the operations of a
session, and the commit of a result that no pass gave. -/
inductive Move where
  | operation (operation : Operation)
  | forge (parsed : Parsed)
deriving DecidableEq, Repr

/-- Whether a move, if it succeeds, changes what there is to be read: the text or the vocabulary. -/
def Move.isChange : Move → Bool
  | .operation (.edit _) | .operation (.apply _) | .operation (.setVocabulary _) => true
  | _ => false

namespace Session

/-- What a move answers, and the session that it leaves. -/
def move (s : Session) : Move → Except Misuse Unit × Session
  | .operation operation => s.perform operation
  | .forge parsed => s.commitResult parsed

/-- The session after a list of moves. -/
def along (s : Session) (moves : List Move) : Session :=
  moves.foldl (fun s move => (s.move move).2) s

/-- The number of changes that succeed in the course of a list of moves. -/
def changes (s : Session) : List Move → Nat
  | [] => 0
  | move :: moves =>
    (if move.isChange && (s.move move).1.isOk then 1 else 0) + (s.move move).2.changes moves

/-- A commit keeps the version, whether it succeeds or not. -/
theorem version_commitResult (s : Session) (parsed : Parsed) :
    (s.commitResult parsed).2.document.version = s.document.version := by
  unfold commitResult
  rcases s.document.commit_result parsed with hrefused | ⟨d, hcommit, hversion⟩
  · rw [hrefused]
    rfl
  · rw [hcommit]
    exact hversion

/-- A move raises the version by one if it is a change that succeeds, and else keeps it. -/
theorem version_move (s : Session) (move : Move) :
    (s.move move).2.document.version =
      s.document.version + if move.isChange && (s.move move).1.isOk then 1 else 0 := by
  cases move with
  | forge parsed => exact s.version_commitResult parsed
  | operation operation =>
    rw [Session.move]
    cases operation with
    | edit e =>
      rw [perform]
      rcases s.document.edit_result e with hrefused | ⟨change, text, hedit⟩
      · rw [hrefused]
        rfl
      · rw [hedit]
        rfl
    | apply e =>
      rw [perform]
      rcases s.document.apply_result e with ⟨misuse, hrefused, -⟩ | ⟨patch, d, happly, hversion⟩
      · rw [hrefused]
        rfl
      · rw [happly]
        exact hversion
    | begin => rfl
    | run index =>
      -- A pass is run on what it captured, and leaves the document alone.
      rw [perform]
      cases s.passes[index]? with
      | none => rfl
      | some pass =>
        rw [Option.elim_some, runPass]
        cases pass.run with
        | error misuse => rfl
        | ok parsed => rfl
    | commit index =>
      rw [perform]
      cases s.results[index]? with
      | none => rfl
      | some parsed => exact s.version_commitResult parsed
    | setVocabulary vocabulary => rfl
    | refresh =>
      rw [perform]
      rcases s.document.refresh_result with ⟨misuse, hrefused⟩ | ⟨d, hrefresh, hversion⟩
      · rw [hrefused]
        rfl
      · rw [hrefresh]
        exact hversion

/-- A version counts the changes that succeeded. -/
theorem version_along (s : Session) (moves : List Move) :
    (s.along moves).document.version = s.document.version + s.changes moves := by
  induction moves generalizing s with
  | nil => rfl
  | cons move moves ih =>
    have hstep := s.version_move move
    have hrest := ih (s.move move).2
    rw [hstep, Nat.add_assoc] at hrest
    exact hrest

/-- The version of a document is the number of changes that succeeded since it was new. Let a pass
be begun on a document after any moves, and let any moves follow: the result that the pass gives,
whenever it is run, can be committed exactly if no change succeeded since the pass was begun.
Otherwise it is refused with the version of the pass and that of the document. -/
theorem commit_along_iff (d : Document) :
    (∀ text source, Document.ofText text source = .ok d → ∀ moves : List Move,
      ((start d).along moves).document.version = (start d).changes moves) ∧
    ∀ before between : List Move,
      let opened := (start d).along before
      let now := opened.along (.operation .begin :: between)
      let since := opened.changes (.operation .begin :: between)
      ∀ parsed, opened.document.begin.run = .ok parsed →
        ((now.document.commit parsed).1 = .ok () ↔ since = 0) ∧
        (since ≠ 0 → (now.document.commit parsed).1 =
          .error (.staleResult opened.document.version now.document.version)) := by
  refine ⟨?_, ?_⟩
  · intro text source hnew moves
    obtain ⟨lines, -, rfl⟩ : ∃ lines, source.readAll (splitRows text) = .ok lines ∧
        ⟨text, lines, 0, .clean, source⟩ = d := by
      rw [Document.ofText, source.readAll_splitRows] at hnew
      exact ⟨_, source.readAll_splitRows text, Except.ok.inj hnew⟩
    exact (version_along _ moves).trans (Nat.zero_add _)
  · intro before between opened now since parsed hrun
    have hpass : parsed.version = opened.document.version := Pass.version_of_run hrun
    have hnow : now.document.version = opened.document.version + since :=
      opened.version_along (.operation .begin :: between)
    by_cases hsince : since = 0
    · have hcurrent : parsed.version = now.document.version := by omega
      rw [Document.commit_current hcurrent]
      exact ⟨iff_of_true rfl hsince, fun h => absurd hsince h⟩
    · have hstale : parsed.version ≠ now.document.version := by omega
      rw [Document.commit_stale hstale, hpass]
      exact ⟨iff_of_false nofun hsince, fun _ => rfl⟩

/-- What does not count as a change: a refused edit, an applied edit that is put back because the
lines were made by hand, a further pass that is run and committed, and a refresh. -/
def meanwhile : List Move :=
  [.operation (.edit ⟨3, 99, ""⟩), .operation (.apply ⟨4, 5, "\n\n"⟩), .operation .begin,
   .operation (.run 1), .forge ⟨3, [], (0, 0)⟩, .operation (.commit 0), .operation .refresh]

/-- Two changes that leave the text as it was. -/
def thereAndBack : List Move :=
  [.operation (.edit ⟨0, 0, "#"⟩), .operation (.edit ⟨0, 1, ""⟩)]

/-- A pass that is begun on a document with forged lines is committed after all that. It is stale
after an edit, also if the next edit brings the same text back. On a new document, the two edits are
all that its version counts. -/
theorem commit_along_iff_forged :
    (∃ parsed, Document.forged.begin.run = .ok parsed ∧
      (((start .forged).along (.operation .begin :: meanwhile)).document.commit parsed).1 =
        .ok () ∧
      (((start .forged).along
          (.operation .begin :: (meanwhile ++ thereAndBack))).document.commit parsed).1 =
        .error (.staleResult 3 5)) ∧
    ∃ d, Document.ofText "Show" ⟨none, .builtin, 0⟩ = .ok d ∧
      ((start d).along (meanwhile ++ thereAndBack)).document.version = 2 := by
  obtain ⟨parsed, hrun⟩ : ∃ parsed, Document.forged.begin.run = .ok parsed :=
    ⟨_, Document.forged.begin.run_eq_ok
      (Document.forged.source.update_none (Document.isRow_begin .forged))⟩
  have hnone : (start .forged).changes (.operation .begin :: meanwhile) = 0 := by decide +kernel
  have htwo : (start .forged).changes (.operation .begin :: (meanwhile ++ thereAndBack)) ≠ 0 := by
    decide +kernel
  have hversion : ((start .forged).along
      (.operation .begin :: (meanwhile ++ thereAndBack))).document.version = 5 := by
    decide +kernel
  have hcount : (Document.ofText "Show" ⟨none, .builtin, 0⟩).map
      (fun d => (start d).changes (meanwhile ++ thereAndBack)) = .ok 2 := by
    decide +kernel
  obtain ⟨hfresh, -⟩ := (commit_along_iff .forged).2 [] meanwhile parsed hrun
  obtain ⟨-, hstale⟩ := (commit_along_iff .forged).2 [] (meanwhile ++ thereAndBack) parsed hrun
  refine ⟨⟨parsed, hrun, hfresh.2 hnone, (hstale htwo).trans ?_⟩, ?_⟩
  · exact congrArg (fun version => Except.error (Misuse.staleResult 3 version)) hversion
  · obtain ⟨d, hnew, -⟩ := Document.ofText_eq_ok "Show" ⟨none, .builtin, 0⟩
    rw [hnew] at hcount
    have hchanges : (start d).changes (meanwhile ++ thereAndBack) = 2 := Except.ok.inj hcount
    have hall := (commit_along_iff d).1 "Show" ⟨none, .builtin, 0⟩ hnew (meanwhile ++ thereAndBack)
    exact ⟨d, hnew, hall.trans hchanges⟩

end Session

end ItemFilter
