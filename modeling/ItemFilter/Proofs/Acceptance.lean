import ItemFilter.Proofs.Names

/-!
# More names are accepted

What a larger vocabulary does to a line. A vocabulary matters in three places only: for a listed
name, for the name of a sound, and for a word that is no keyword. Where more names are accepted,
fewer are reported, and nothing else changes what is reported: whether text follows the names does
not depend on which of them are accepted, and that there is no name at all is reported in either
case (`Draft.relaxes_names`). Behind a sound the reading goes on in the same place, with the same
reports to come (`Draft.relaxes_alertSound`).

So the errors under a larger vocabulary are some of those under the smaller one, and a valid line
stays valid (`Line.relaxes_read`). Two vocabularies that accept the same names give the same line
(`Line.read_congr`), in whatever order, how often and in which of its lists a name is entered.
-/

namespace ItemFilter

open Text Lexeme

/-! ## Vocabularies -/

namespace Vocabulary

/-- A vocabulary accepts all names that another one accepts, and treats unknown keywords in the same
way. -/
structure Extends (larger smaller : Vocabulary) : Prop where
  unknownKeywords_eq : larger.unknownKeywords = smaller.unknownKeywords
  isClass {name : String} : smaller.isClass name = true → larger.isClass name = true
  isBase {name : String} : smaller.isBase name = true → larger.isBase name = true
  isSound {name : String} : smaller.isSound name = true → larger.isSound name = true

/-- A vocabulary has the entries of another one, in whatever order, however often, and each on the
list of valid names or on the white list. -/
structure Rearranges (v w : Vocabulary) : Prop where
  unknownKeywords_eq : v.unknownKeywords = w.unknownKeywords
  classes (name : String) :
    name ∈ v.validClasses ∨ name ∈ v.classWhitelist ↔
      name ∈ w.validClasses ∨ name ∈ w.classWhitelist
  bases (name : String) :
    name ∈ v.validBases ∨ name ∈ v.baseWhitelist ↔ name ∈ w.validBases ∨ name ∈ w.baseWhitelist
  sounds (name : String) : name ∈ v.validSounds ↔ name ∈ w.validSounds

variable {v w : Vocabulary}

/-- Whose entries are rearranged is rearranged in turn. -/
theorem Rearranges.symm (h : v.Rearranges w) : w.Rearranges v :=
  ⟨h.unknownKeywords_eq.symm, fun name => (h.classes name).symm, fun name => (h.bases name).symm,
    fun name => (h.sounds name).symm⟩

/-- The same entries accept the same names. -/
theorem Rearranges.extends (h : v.Rearranges w) : v.Extends w where
  unknownKeywords_eq := h.unknownKeywords_eq
  isClass hname := by
    simp only [isClass, Bool.or_eq_true, List.elem_iff] at hname ⊢
    exact (h.classes _).2 hname
  isBase hname := by
    simp only [isBase, Bool.or_eq_true, List.elem_iff] at hname ⊢
    exact (h.bases _).2 hname
  isSound hname := List.elem_iff.2 ((h.sounds _).2 (List.elem_iff.1 hname))

/-- A larger vocabulary accepts more names of either kind. -/
theorem Extends.accepts (h : v.Extends w) (lexicon : Lexicon) {name : String}
    (hname : lexicon.accepts w name = true) : lexicon.accepts v name = true := by
  cases lexicon with
  | classes => exact h.isClass hname
  | bases => exact h.isBase hname

/-- Vocabularies that accept the same names. -/
theorem Extends.accepts_eq (h : v.Extends w) (h' : w.Extends v) :
    (∀ lexicon : Lexicon, lexicon.accepts v = lexicon.accepts w) ∧ v.isSound = w.isSound := by
  refine ⟨fun lexicon => funext fun name => ?_, funext fun name => ?_⟩
  · exact Bool.eq_iff_iff.2 ⟨h'.accepts lexicon, h.accepts lexicon⟩
  · exact Bool.eq_iff_iff.2 ⟨h'.isSound, h.isSound⟩

end Vocabulary

/-! ## Fewer errors -/

/-- Messages with some of the errors of others, and the same besides. -/
structure Messages.Fewer (m' m : Messages) : Prop where
  errors : m'.errors.Sublist m.errors
  warnings_eq : m'.warnings = m.warnings
  info_eq : m'.info = m.info

namespace Messages.Fewer

variable {m m' : Messages}

/-- Messages have all of their errors. -/
theorem refl (m : Messages) : m.Fewer m := ⟨List.Sublist.refl _, rfl, rfl⟩

/-- A report on both sides. -/
theorem report (h : m'.Fewer m) {problem : Problem} (herror : problem.severity = .error)
    (file : Option String) (range : Range) :
    (m'.report file problem range).Fewer (m.report file problem range) := by
  rw [Messages.report_error herror, Messages.report_error herror]
  exact ⟨h.errors.append_right _, h.warnings_eq, h.info_eq⟩

/-- A report on one side. -/
theorem of_report (m : Messages) {problem : Problem} (herror : problem.severity = .error)
    (file : Option String) (range : Range) : m.Fewer (m.report file problem range) := by
  rw [Messages.report_error herror]
  exact ⟨List.sublist_append_left _ _, rfl, rfl⟩

end Messages.Fewer

namespace Draft

variable {α : Type} {d d' : Draft} {v v' : Vocabulary}

/-- Two drafts are at the same place of their row, and one of them has some of the errors of the
other. -/
structure Relaxes (d' d : Draft) : Prop where
  cursor_eq : d'.cursor = d.cursor
  keyword_eq : d'.keyword = d.keyword
  file_eq : d'.file = d.file
  fewer : d'.messages.Fewer d.messages

namespace Relaxes

/-- Both drafts report an error. -/
theorem report (h : d'.Relaxes d) {problem : Problem} (herror : problem.severity = .error)
    (range : Range) : (d'.report problem range).Relaxes (d.report problem range) where
  cursor_eq := h.cursor_eq
  keyword_eq := h.keyword_eq
  file_eq := h.file_eq
  fewer := by
    have hfewer := h.fewer.report herror d.file range
    unfold Draft.report
    rw [h.file_eq]
    exact hfewer

/-- Both drafts move on. -/
theorem move (h : d'.Relaxes d) (c : Cursor) :
    Relaxes { d' with cursor := c } { d with cursor := c } :=
  ⟨rfl, h.keyword_eq, h.file_eq, h.fewer⟩

/-- Only one draft reports an error. -/
theorem of_report (d : Draft) {problem : Problem} (herror : problem.severity = .error)
    (range : Range) : d.Relaxes (d.report problem range) where
  cursor_eq := rfl
  keyword_eq := rfl
  file_eq := rfl
  fewer := Messages.Fewer.of_report d.messages herror d.file range

/-- Only some of the names are reported. -/
theorem reportRejected (d : Draft) (lexicon : Lexicon) {rejected' rejected : List (Token String)}
    (h : rejected'.Sublist rejected) :
    (d.reportRejected lexicon rejected').Relaxes (d.reportRejected lexicon rejected) := by
  rw [reportRejected_eq, reportRejected_eq]
  exact ⟨rfl, rfl, rfl, (h.map _).append_left _, rfl, rfl⟩

/-- The rest of the row is judged alike. -/
theorem finish (h : d'.Relaxes d) (value' value : α) :
    (d'.finish value').messages.Fewer (d.finish value).messages := by
  rw [messages_finish, messages_finish, h.cursor_eq, h.file_eq]
  split_ifs
  · exact h.fewer
  · exact h.fewer.report rfl _ _

end Relaxes

end Draft

/-- Two drafts at the same place are read in step, and what is reported from there on is reported in
both. -/
def Likeness.fewer : Likeness where
  move := id
  Alike d d' := d'.Relaxes d
  Ended o o' := o'.messages.Fewer o.messages
  Permits problem := problem.severity = .error
  permits herror _ := herror
  keyword_eq h := h.keyword_eq
  next := by
    intro α recognise Spells d d' _ h
    rw [h.cursor_eq]
    cases hnext : d.cursor.next recognise with
    | none => exact .inl ⟨rfl, rfl⟩
    | some found =>
      have hmoved := h.move found.2
      exact .inr ⟨found.1, found.2, found.2, rfl, rfl, hmoved,
        fun problem herror _ => hmoved.report herror found.1.range⟩
  finish h := h.finish () ()
  missing := by
    intro d d' problem h herror _ _
    have hreported := h.report herror d.cursor.restOfLine
    unfold Draft.missing Draft.abort
    rw [h.cursor_eq]
    exact hreported.fewer

/-! ## Rules -/

/-- The names that an argument lists. -/
def Argument.listed : Argument → List (Token String)
  | .names tokens => tokens
  | _ => []

/-- An outcome has some of the errors of another one, and lists at least its names. -/
structure Outcome.Relaxes (o' o : Outcome Argument) : Prop where
  fewer : o'.messages.Fewer o.messages
  listed : o.value.listed.Sublist o'.value.listed

/-- An outcome relaxes itself. -/
theorem Outcome.Relaxes.refl (o : Outcome Argument) : o.Relaxes o :=
  ⟨.refl o.messages, List.Sublist.refl _⟩

namespace Draft

variable {d : Draft} {v v' : Vocabulary}

/-- The larger vocabulary rejects fewer names. Whether there are any names and what follows them is
the same under both. -/
theorem relaxes_names (h : v'.Extends v) (d : Draft) (lexicon : Lexicon) :
    ((d.names lexicon v').map .names).Relaxes ((d.names lexicon v).map .names) := by
  by_cases hnothing : d.equalityOperator.cursor.next string? = none ∧
      d.equalityOperator.messages.isEmpty = true
  · -- Without names and errors, what is missing does not depend on the vocabulary.
    rw [names_of_none hnothing.1 hnothing.2, names_of_none hnothing.1 hnothing.2]
    exact .refl _
  rw [names_of_some hnothing, names_of_some hnothing, map_finish, map_finish]
  generalize d.equalityOperator = e
  generalize e.cursor.strings.1 = tokens
  have haccepted : (tokens.filter fun t => lexicon.accepts v t.value).Sublist
      (tokens.filter fun t => lexicon.accepts v' t.value) :=
    List.monotone_filter_right tokens fun t => h.accepts lexicon
  have hrejected : (tokens.filter fun t => !lexicon.accepts v' t.value).Sublist
      (tokens.filter fun t => !lexicon.accepts v t.value) := by
    refine List.monotone_filter_right tokens fun t ht => ?_
    rw [Bool.not_eq_true', ← Bool.not_eq_true] at ht ⊢
    exact mt (h.accepts lexicon) ht
  refine ⟨(Relaxes.reportRejected _ lexicon hrejected).finish _ _, ?_⟩
  rw [value_finish, value_finish]
  exact haccepted

/-- Behind a sound, or where there is none, the reading goes on in the same place with fewer errors
under the larger vocabulary. -/
theorem relaxes_soundId (h : v'.Extends v) (d : Draft) :
    d.soundId v' = d.soundId v ∨ ∃ id id' e e', d.soundId v = (some id, e) ∧
      d.soundId v' = (some id', e') ∧ e'.Relaxes e := by
  unfold soundId take
  cases d.cursor.next number? with
  | some found => exact .inl rfl
  | none =>
    dsimp only
    cases d.cursor.next string? with
    | none => exact .inl rfl
    | some found =>
      obtain ⟨name, c⟩ := found
      dsimp only
      by_cases hknown : v.isSound name.value = true
      · rw [if_pos hknown, if_pos (h.isSound hknown)]
        exact .inl rfl
      · rw [if_neg hknown]
        by_cases hknown' : v'.isSound name.value = true
        · -- Only under the smaller vocabulary the name is reported, behind which both go on.
          rw [if_pos hknown']
          exact .inr ⟨_, _, _, _, rfl, rfl, .of_report _ rfl name.range⟩
        · rw [if_neg hknown']
          exact .inl rfl

/-- An alert sound. -/
theorem relaxes_alertSound (h : v'.Extends v) (d : Draft) :
    ((d.alertSound v').map .sound).Relaxes ((d.alertSound v).map .sound) := by
  unfold alertSound
  obtain hsame | ⟨id, id', e, e', hid, hid', hrelaxes⟩ := relaxes_soundId h d.equalityOperator
  · rw [hsame]
    exact .refl _
  · -- The volume is read in the same way on both sides.
    have halike : Likeness.fewer.Alike e e' := hrelaxes
    obtain ⟨volume, e₁, e₁', hvolume, hvolume', hbehind⟩ :=
      Likeness.optional halike Bounds.volume toWord16?
    rw [hid, hid']
    dsimp only
    rw [hvolume, hvolume', map_finish, map_finish]
    refine ⟨Draft.Relaxes.finish hbehind _ _, ?_⟩
    rw [value_finish, value_finish]
    exact List.Sublist.refl _

/-- Whatever follows the keyword of a rule. -/
theorem relaxes_argument (h : v'.Extends v) (d : Draft) (name : RuleName) :
    (d.argument v' name).Relaxes (d.argument v name) := by
  cases name with
  | condition condition =>
    cases condition with
    | itemClass => exact relaxes_names h d .classes
    | baseType => exact relaxes_names h d .bases
    | itemLevel | dropLevel | quality | sockets | linkedSockets | height | width | socketGroup
    | rarity | identified | corrupted | elderItem | shaperItem | shapedMap | elderMap =>
      exact .refl _
  | action action =>
    cases action with
    | playAlertSound | playAlertSoundPositional => exact relaxes_alertSound h d
    | setBorderColor | setTextColor | setBackgroundColor | setFontSize | disableDropSound
    | customAlertSound => exact .refl _

/-- The argument of a rule is the same under vocabularies that accept the same names. -/
theorem argument_congr (h : v'.Extends v) (h' : v.Extends v') (d : Draft) (name : RuleName) :
    d.argument v' name = d.argument v name := by
  obtain ⟨haccepts, hsound⟩ := h.accepts_eq h'
  have hnames (lexicon : Lexicon) : d.names lexicon v' = d.names lexicon v := by
    rw [names_eq, names_eq, haccepts lexicon]
  have halert : d.alertSound v' = d.alertSound v := by
    unfold alertSound soundId
    rw [hsound]
  cases name with
  | condition condition =>
    cases condition with
    | itemClass => exact congrArg (Outcome.map Argument.names) (hnames .classes)
    | baseType => exact congrArg (Outcome.map Argument.names) (hnames .bases)
    | itemLevel | dropLevel | quality | sockets | linkedSockets | height | width | socketGroup
    | rarity | identified | corrupted | elderItem | shaperItem | shapedMap | elderMap => rfl
  | action action =>
    cases action with
    | playAlertSound | playAlertSoundPositional =>
      exact congrArg (Outcome.map Argument.sound) halert
    | setBorderColor | setTextColor | setBackgroundColor | setFontSize | disableDropSound
    | customAlertSound => rfl

end Draft

/-! ## Rows -/

namespace Line

/-- The accepted names that a line lists. -/
def listed (line : Line) : List (Token String) :=
  (line.rule?.map fun rule => rule.argument.listed).getD []

/-- A line reports some of the errors of another one and the same warnings, lists at least its
names, and is valid where the other one is. -/
structure Relaxes (line' line : Line) : Prop where
  errors : line'.messages.errors.Sublist line.messages.errors
  warnings_eq : line'.messages.warnings = line.messages.warnings
  listed : line.listed.Sublist line'.listed
  valid : line.invalid = false → line'.invalid = false

/-- A line relaxes itself. -/
theorem Relaxes.refl (line : Line) : line.Relaxes line :=
  ⟨List.Sublist.refl _, rfl, List.Sublist.refl _, id⟩

variable {v v' : Vocabulary}

/-- A line that starts with a keyword. -/
theorem relaxes_recognised (h : v'.Extends v) (c : Cursor) (word : Token String)
    (keyword : Keyword) (file : Option String) :
    (recognised c word keyword file v').Relaxes (recognised c word keyword file v) := by
  cases keyword with
  | block visibility => exact .refl _
  | rule name =>
    obtain ⟨hfewer, hlisted⟩ := Draft.relaxes_argument h (Draft.start c word.value file) name
    refine ⟨hfewer.errors, hfewer.warnings_eq, hlisted, fun hvalid => ?_⟩
    -- Where there is no error there are not fewer.
    have hnone := hfewer.errors
    rw [invalid_make_eq_false_iff.1 hvalid] at hnone
    exact invalid_make_eq_false_iff.2 (List.sublist_nil.1 hnone)

/-- Every row has fewer errors under a larger vocabulary. -/
theorem relaxes_read (h : v'.Extends v) (c : Cursor) (file : Option String) :
    (read c file v').Relaxes (read c file v) := by
  unfold read
  split_ifs
  · exact .refl _
  cases c.comment with
  | some found => exact .refl _
  | none =>
    dsimp only
    cases c.next word? with
    | none => exact .refl _
    | some found =>
      dsimp only
      cases Keyword.ofName? found.1.value with
      | none =>
        dsimp only
        rw [h.unknownKeywords_eq]
        exact .refl _
      | some keyword => exact relaxes_recognised h found.2 found.1 keyword file

/-- Every row gives the same line under vocabularies that accept the same names. -/
theorem read_congr (h : v'.Extends v) (h' : v.Extends v') (c : Cursor) (file : Option String) :
    read c file v' = read c file v := by
  unfold read recognised
  simp only [h.unknownKeywords_eq, Draft.argument_congr h h']

/-- Under a vocabulary that accepts all names that another one accepts, the errors of a row are some
of those under the other one, in the same order, the warnings are the same, all names that were
accepted are still accepted, and a valid row stays valid. If both accept the same names, their lines
are the same. In particular it does not matter in which order, how often and on which of its two
lists a name is entered. -/
theorem parse_relaxes {text : String} (htext : IsRow text) (row : Nat) (file : Option String)
    {v v' : Vocabulary} (h : v'.Extends v) :
    ∃ line line', parse text row file v = .ok line ∧ parse text row file v' = .ok line' ∧
      line'.Relaxes line ∧ (v.Extends v' → line' = line) ∧
      ∀ w : Vocabulary, w.Rearranges v → parse text row file w = .ok line := by
  let line (w : Vocabulary) : Line := read ⟨row, text.toList, 0⟩ file w
  have hparse (w : Vocabulary) : parse text row file w = .ok (line w) :=
    Source.parse_eq_ok ⟨file, w, 0⟩ htext row
  refine ⟨line v, line v', hparse v, hparse v', relaxes_read h _ file, ?_, ?_⟩
  · exact fun h' => read_congr h h' _ file
  · intro w hw
    rw [hparse w]
    exact congrArg Except.ok (read_congr hw.extends hw.symm.extends _ file)

/-- A wrong operator, a name on the list of valid names, one that is accepted only by a larger
vocabulary, and one that is not accepted at all. -/
def threeNames : String := "Class < Boots Zed \"Map Piece\" # x"

/-- A vocabulary with one class. -/
def oneClass : Vocabulary := { Vocabulary.empty with validClasses := ["Boots"] }

/-- A vocabulary with a further class, where the first one is entered twice on the white list. -/
def twoClasses : Vocabulary :=
  { Vocabulary.empty with validClasses := ["Zed"], classWhitelist := ["Boots", "Boots"] }

/-- With one more class, one error of three is gone. -/
theorem parse_relaxes_threeNames :
    (IsRow threeNames ∧ twoClasses.Extends oneClass) ∧
    ∃ line line', parse threeNames 4 none oneClass = .ok line ∧
      parse threeNames 4 none twoClasses = .ok line' ∧ line'.Relaxes line ∧
      line.messages.errors.map Diagnostic.range =
        [.onRow 4 6 7, .onRow 4 14 17, .onRow 4 18 29] ∧
      line'.messages.errors.map Diagnostic.range = [.onRow 4 6 7, .onRow 4 18 29] := by
  have hrow : IsRow threeNames := by decide
  have hextends : twoClasses.Extends oneClass := by
    refine ⟨rfl, fun {name} hname => ?_, id, id⟩
    obtain rfl : name = "Boots" := by
      simpa [Vocabulary.isClass, oneClass, Vocabulary.empty] using hname
    decide
  have hread : (parse threeNames 4 none oneClass).map
      (fun line => line.messages.errors.map Diagnostic.range) =
      .ok [.onRow 4 6 7, .onRow 4 14 17, .onRow 4 18 29] := by decide +kernel
  have hread' : (parse threeNames 4 none twoClasses).map
      (fun line => line.messages.errors.map Diagnostic.range) =
      .ok [.onRow 4 6 7, .onRow 4 18 29] := by decide +kernel
  obtain ⟨line, line', hline, hline', hrelaxes, -⟩ := parse_relaxes hrow 4 none hextends
  rw [hline] at hread
  rw [hline'] at hread'
  exact ⟨⟨hrow, hextends⟩, line, line', hline, hline', hrelaxes, Except.ok.inj hread,
    Except.ok.inj hread'⟩

end Line

end ItemFilter
