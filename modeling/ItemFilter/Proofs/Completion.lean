import ItemFilter.Proofs.Storage
import ItemFilter.Settings.Store

/-!
# What is offered is what is accepted

A vocabulary says in two ways which names there are: it lists the names to offer, and it accepts
names that are read. Both mean the same names (`Lexicon.accepts_iff`). Between them is the text of a
row, in which a name stands in quotes.

Every name that is offered can be written so, whatever characters it holds besides quotes and line
breaks: a list of such names is read without a report as exactly these names
(`Line.parse_offered_names`), and so is a sound (`Line.parse_offered_sound`). Conversely no row
stores a name that is not offered, whatever else is wrong with the row (`Line.offered_of_read`). The
names of settings are offered by the vocabulary that the settings describe
(`Settings.offered_of_vocabulary`).
-/

namespace ItemFilter

open Text Lexeme

/-! ## Offers -/

/-- The names of a kind that a vocabulary offers. -/
def Lexicon.offered : Lexicon → Vocabulary → List String
  | classes, v => v.classes
  | bases, v => v.bases

/-- Valid and white-listed names are offered. -/
theorem Vocabulary.mem_offer_iff {valid whitelist : List String} {name : String} :
    name ∈ offer valid whitelist ↔ name ∈ valid ∨ name ∈ whitelist := by
  unfold offer
  rw [List.mem_append, List.mem_filter]
  by_cases hvalid : name ∈ valid
  · simp [hvalid]
  · simp [hvalid]

/-- A vocabulary accepts the names that it offers. -/
theorem Lexicon.accepts_iff {lexicon : Lexicon} {v : Vocabulary} {name : String} :
    lexicon.accepts v name = true ↔ name ∈ lexicon.offered v := by
  cases lexicon with
  | classes =>
    rw [offered, Vocabulary.classes, Vocabulary.mem_offer_iff]
    simp [accepts, Vocabulary.isClass]
  | bases =>
    rw [offered, Vocabulary.bases, Vocabulary.mem_offer_iff]
    simp [accepts, Vocabulary.isBase]

/-- A name can be written in quotes on a row. -/
def IsQuotable (name : String) : Prop := '"' ∉ name.toList ∧ IsRow name

instance (name : String) : Decidable (IsQuotable name) :=
  inferInstanceAs (Decidable ('"' ∉ name.toList ∧ IsRow name))

/-- In quotes, such a name is a row. -/
theorem IsQuotable.isRow {name : String} (h : IsQuotable name) : IsRow (quoted name) := by
  intro c hc
  rcases mem_quoted_iff.1 hc with rfl | hc
  · decide
  · exact h.2 c hc

/-! ## Every offer is accepted -/

/-- Parts with one blank in front of each say what they spell. -/
theorem RuleName.says_spaced {name : RuleName} {vocabulary : Vocabulary} {parts : List String}
    {a : Argument} (h : name.pattern.Spells vocabulary (parts.map String.toList) a) :
    name.Says vocabulary (spaced parts) none a none := by
  have hlined := lined_spaced parts (show atBoundary [] = true from rfl)
  rw [List.append_nil] at hlined
  exact ⟨spaced parts, _, [], .absent, h, hlined, ⟨[], [], nofun, rfl, .inl rfl⟩, rfl⟩

namespace Line

/-- A list of offered names in quotes is read without a report, as exactly these names in their
order. -/
theorem parse_offered_names {lexicon : Lexicon} {v : Vocabulary} {names : List String}
    (hne : names ≠ []) (hnames : ∀ name ∈ names, name ∈ lexicon.offered v ∧ IsQuotable name)
    (row : Nat) (file : Option String) :
    ∃ line, parse (" ".intercalate (lexicon.condition.name :: names.map quoted)) row file v =
        .ok line ∧ line.messages = .none ∧
      line.kind.unplaced = .rule (.said (.condition lexicon.condition) none
        (.names (names.map .nowhere)) none) := by
  have hpattern : (RuleName.condition lexicon.condition).pattern = .names lexicon := by
    cases lexicon <;> rfl
  have hstrings : List.Forall₂ SpellsString ((names.map quoted).map String.toList) names := by
    rw [List.map_map, List.forall₂_map_left_iff, List.forall₂_same]
    exact fun name hname => spellsString_quoted (hnames name hname).2.1
  have hspells : (RuleName.condition lexicon.condition).pattern.Spells v
      ((names.map quoted).map String.toList) (.names (names.map .nowhere)) := by
    rw [hpattern]
    exact .names hstrings hne fun name hname => Lexicon.accepts_iff.2 (hnames name hname).1
  have hrow : IsRow (" ".intercalate (lexicon.condition.name :: names.map quoted)) := by
    refine isRow_intercalate (isRow_name (.condition lexicon.condition)) ?_
    exact List.forall_mem_map.2 fun name hname => (hnames name hname).2.isRow
  obtain ⟨line, hline, -, hread⟩ :=
    parse_of_said (.condition lexicon.condition) hrow (RuleName.says_spaced hspells) row file
  exact ⟨line, hline, hread⟩

/-- An offered sound in quotes is read without a report, as the sound of this name. -/
theorem parse_offered_sound {v : Vocabulary} {name : String} (hname : name ∈ v.sounds)
    (hquotable : IsQuotable name) (row : Nat) (file : Option String) :
    ∃ line, parse (" ".intercalate [Action.playAlertSound.name, quoted name]) row file v =
        .ok line ∧ line.messages = .none ∧
      line.kind.unplaced = .rule (.said (.action .playAlertSound) none
        (.sound (some ⟨.nowhere (.named name), none⟩)) none) := by
  -- A numeral has no quotes, so that even a name of digits is not taken for a number.
  have hnumber : ¬ ∃ n, SpellsInteger (quoted name).toList n := by
    rintro ⟨n, hn⟩
    have hquote := hn.isBareString.2.2 '"' (mem_quoted_iff.2 (.inl rfl))
    revert hquote
    decide
  have hsound : v.SpellsSound (quoted name).toList (.named name) :=
    .named hnumber (spellsString_quoted hquotable.1) (List.elem_iff.2 hname)
  have hdefault : List.Forall₂ SpellsVolume [] (none : Option UInt16).toList := .nil
  have hspells : (RuleName.action .playAlertSound).pattern.Spells v
      ([quoted name].map String.toList) (.sound (some ⟨.nowhere (.named name), none⟩)) :=
    .sound hsound hdefault nofun
  have hrow : IsRow (" ".intercalate [Action.playAlertSound.name, quoted name]) :=
    isRow_intercalate (isRow_name (.action .playAlertSound))
      (List.forall_mem_singleton.2 hquotable.isRow)
  obtain ⟨line, hline, -, hread⟩ :=
    parse_of_said (.action .playAlertSound) hrow (RuleName.says_spaced hspells) row file
  exact ⟨line, hline, hread⟩

end Line

/-! ## Nothing else is stored -/

namespace Draft

variable {d d' : Draft} {v : Vocabulary}

/-- A sound that is read by its name is one that is offered. -/
theorem mem_sounds_of_soundId {t : Token SoundId} (h : d.soundId v = (some (some t), d'))
    {name : String} (hname : t.value = .named name) : name ∈ v.sounds := by
  unfold soundId at h
  split at h
  · -- A number has no name.
    rename_i number d₁ _
    have hsome : (d₁.bounded number Bounds.soundNumber fun n =>
        (toByte? n).map SoundId.numbered).1 = some t := Option.some.inj (congrArg Prod.fst h)
    unfold bounded at hsome
    split_ifs at hsome
    obtain ⟨id, hid, rfl⟩ := Option.map_eq_some_iff.1 hsome
    obtain ⟨byte, -, rfl⟩ := Option.map_eq_some_iff.1 hid
    cases hname
  · -- A name is stored if it is known, and is reported otherwise.
    split at h
    · split_ifs at h with hknown
      · obtain ⟨hsome, -⟩ := Prod.mk.inj h
        obtain rfl := Option.some.inj (Option.some.inj hsome)
        obtain rfl := SoundId.named.inj hname
        exact List.elem_iff.1 hknown
      · cases h
    · cases h

/-- The sound of an alert sound is the one that is read first. -/
theorem exists_soundId {s : AlertSound} (h : (d.alertSound v).value = some s) :
    ∃ d', d.equalityOperator.soundId v = (some (some s.id), d') := by
  unfold alertSound at h
  cases hid : d.equalityOperator.soundId v with
  | mk id d₁ =>
    rw [hid] at h
    cases id with
    | none => cases h
    | some id =>
      dsimp only at h
      rw [value_finish, alertSoundOf_eq_some_iff] at h
      obtain ⟨rfl, -⟩ := h
      exact ⟨d₁, rfl⟩

/-- The names that are stored are ones that are accepted. -/
theorem accepts_of_mem_names {lexicon : Lexicon} {t : Token String}
    (h : t ∈ (d.names lexicon v).value) : lexicon.accepts v t.value = true := by
  by_cases hnone : d.equalityOperator.cursor.next string? = none ∧
      d.equalityOperator.messages.isEmpty = true
  · rw [names_of_none hnone.1 hnone.2] at h
    cases h
  · -- Of the strings that are read, those that are not accepted are left out.
    rw [names_of_some hnone, value_finish] at h
    exact (List.mem_filter.1 h).2

end Draft

/-- A rule holds offered names only: those that it lists, if it is one that lists names, and that of
its sound, if it is an alert sound. -/
structure Rule.Offered (v : Vocabulary) (r : Rule) : Prop where
  names : ∀ lexicon : Lexicon, r.name.value = .condition lexicon.condition →
    ∃ tokens, r.argument = .names tokens ∧ ∀ t ∈ tokens, t.value ∈ lexicon.offered v
  sound : r.name.value = .action .playAlertSound ∨
      r.name.value = .action .playAlertSoundPositional →
    ∃ s, r.argument = .sound s ∧ ∀ alert ∈ s, ∀ name, alert.id.value = .named name →
      name ∈ v.sounds

/-- The rule of a row holds offered names only, whether the row is valid or not. -/
theorem Line.offered_of_read {c : Cursor} {file : Option String} {v : Vocabulary} {r : Rule}
    (h : (read c file v).kind = .rule r) : r.Offered v := by
  obtain ⟨range, c', -, hread⟩ := exists_keyword h
  rw [hread] at h
  have hargument : r.argument =
      ((Draft.start c' r.name.value.name file).argument v r.name.value).value :=
    (congrArg Rule.argument (LineKind.rule.inj h)).symm
  constructor
  · intro lexicon hname
    rw [hname] at hargument
    -- Of all rules only the two that list names read their argument like this.
    have hnames : r.argument = .names
        ((Draft.start c' lexicon.condition.name file).names lexicon v).value := by
      cases lexicon with
      | classes => exact hargument
      | bases => exact hargument
    exact ⟨_, hnames, fun t ht => Lexicon.accepts_iff.1 (Draft.accepts_of_mem_names ht)⟩
  · intro hname
    have hsound : r.argument = .sound
        ((Draft.start c' r.name.value.name file).alertSound v).value := by
      rcases hname with hname | hname
      · rw [hargument, hname]
        rfl
      · rw [hargument, hname]
        rfl
    refine ⟨_, hsound, fun alert halert name hid => ?_⟩
    obtain ⟨d, hread⟩ := Draft.exists_soundId halert
    exact Draft.mem_sounds_of_soundId hread hid

/-! ## Settings -/

/-- A vocabulary offers what settings name: all names of the data sets that have a file, and all
white-listed names. -/
structure Settings.OfferedBy (s : Settings) (disk : Files.Disk) (v : Vocabulary) : Prop where
  classes : ∀ path ∈ s.datasets.classes, ∃ text, disk.read path = .ok text ∧
    ∀ name ∈ namesOf text, name ∈ v.classes
  bases : ∀ path ∈ s.datasets.bases, ∃ text, disk.read path = .ok text ∧
    ∀ name ∈ namesOf text, name ∈ v.bases
  sounds : ∀ path ∈ s.datasets.sounds, ∃ text, disk.read path = .ok text ∧
    ∀ name ∈ namesOf text, name ∈ v.sounds
  whitelist : (∀ name ∈ s.whitelist.classes, name ∈ v.classes) ∧
    ∀ name ∈ s.whitelist.bases, name ∈ v.bases

/-- The names of a data set that has a file are those in the text of the file. -/
theorem Settings.exists_text {disk : Files.Disk} {dataset : Dataset} {builtin names : List String}
    {path : Option String} (h : readDataset disk dataset builtin path = .ok names) :
    ∀ p ∈ path, ∃ text, disk.read p = .ok text ∧ names = namesOf text := by
  rintro p rfl
  unfold readDataset at h
  dsimp only at h
  split at h
  · cases h
  · rename_i text htext
    exact ⟨text, htext, (Except.ok.inj h).symm⟩

/-- A computation that comes to an end has passed its first step. -/
theorem exists_of_bind_eq_ok {ε α β : Type} {x : Except ε α} {f : α → Except ε β} {b : β}
    (h : x >>= f = .ok b) : ∃ a, x = .ok a ∧ f a = .ok b := by
  cases x with
  | error e => cases h
  | ok a => exact ⟨a, rfl, h⟩

/-- The vocabulary that settings describe offers what they name. -/
theorem Settings.offered_of_vocabulary {s : Settings} {disk : Files.Disk} {v : Vocabulary}
    (h : s.vocabulary disk = .ok v) : s.OfferedBy disk v := by
  -- The data sets are read one after the other, and all of them were read.
  unfold vocabulary at h
  obtain ⟨classes, hclasses, h⟩ := exists_of_bind_eq_ok h
  obtain ⟨bases, hbases, h⟩ := exists_of_bind_eq_ok h
  obtain ⟨sounds, hsounds, h⟩ := exists_of_bind_eq_ok h
  obtain rfl := Except.ok.inj h
  refine ⟨fun path hpath => ?_, fun path hpath => ?_, fun path hpath => ?_, ?_, ?_⟩
  · obtain ⟨text, htext, rfl⟩ := exists_text hclasses path hpath
    exact ⟨text, htext, fun name hname => Vocabulary.mem_offer_iff.2 (.inl hname)⟩
  · obtain ⟨text, htext, rfl⟩ := exists_text hbases path hpath
    exact ⟨text, htext, fun name hname => Vocabulary.mem_offer_iff.2 (.inl hname)⟩
  · obtain ⟨text, htext, rfl⟩ := exists_text hsounds path hpath
    exact ⟨text, htext, fun name hname => hname⟩
  · exact fun name hname => Vocabulary.mem_offer_iff.2 (.inr hname)
  · exact fun name hname => Vocabulary.mem_offer_iff.2 (.inr hname)

/-! ## Completion -/

/-- What a vocabulary offers is what can be written and stored. -/
structure Vocabulary.Completes (v : Vocabulary) : Prop where
  /-- A list of offered names in quotes is read as exactly these names in their order. -/
  names : ∀ (lexicon : Lexicon) (names : List String), names ≠ [] →
    (∀ name ∈ names, name ∈ lexicon.offered v ∧ IsQuotable name) →
    ∀ row file, ∃ line,
      Line.parse (" ".intercalate (lexicon.condition.name :: names.map quoted)) row file v =
        .ok line ∧ line.messages = .none ∧
      line.kind.unplaced = .rule (.said (.condition lexicon.condition) none
        (.names (names.map .nowhere)) none)
  /-- An offered sound in quotes is read as the sound of this name. -/
  sound : ∀ name ∈ v.sounds, IsQuotable name → ∀ row file, ∃ line,
    Line.parse (" ".intercalate [Action.playAlertSound.name, quoted name]) row file v = .ok line ∧
      line.messages = .none ∧
      line.kind.unplaced = .rule (.said (.action .playAlertSound) none
        (.sound (some ⟨.nowhere (.named name), none⟩)) none)
  /-- A rule stores no other name, whether its row is valid or not. -/
  stored : ∀ text row file line r, Line.parse text row file v = .ok line → line.kind = .rule r →
    r.Offered v
  /-- If the vocabulary is that of settings, it offers what these name. -/
  settings : ∀ (s : Settings) (disk : Files.Disk), s.vocabulary disk = .ok v → s.OfferedBy disk v

/-- Every vocabulary accepts and stores the names that it offers and no other. -/
theorem Vocabulary.completes (v : Vocabulary) : v.Completes where
  names _ _ hne hnames := Line.parse_offered_names hne hnames
  sound _ hname hquotable := Line.parse_offered_sound hname hquotable
  stored text row file line r hline hrule := by
    obtain ⟨-, rfl⟩ := Line.eq_read_of_parse hline
    exact Line.offered_of_read hrule
  settings _ _ := Settings.offered_of_vocabulary

/-- Files of a data set of classes, with blanks around and within a name, and of a data set of
sounds. -/
def oddDisk : Files.Disk
  | "classes.txt" => .ok (.file (.text "12\n# no\n\t Old  Boots \r\n"))
  | "sounds.txt" => .ok (.file (.text "007"))
  | _ => .error .notFound

/-- Settings with these data sets, an empty class and one that starts like a comment. -/
def oddSettings : Settings :=
  ⟨.ignore, ⟨some "classes.txt", none, some "sounds.txt"⟩, ⟨["", "# 1"], []⟩⟩

/-- The vocabulary that these settings describe. -/
def oddVocabulary : Vocabulary := ⟨["12", "Old  Boots"], [], ["007"], ["", "# 1"], [], .ignore⟩

/-- In quotes, an empty class, one that starts like a comment and classes and sounds made of digits
are read as what they are; a row with a wrong operator and an unknown class stores the known one. -/
theorem Vocabulary.completes_oddVocabulary :
    (oddSettings.vocabulary oddDisk = .ok oddVocabulary ∧
      oddSettings.OfferedBy oddDisk oddVocabulary) ∧
    (∃ line, Line.parse "Class \"\" \"Old  Boots\" \"# 1\" \"12\"" 3 none oddVocabulary =
        .ok line ∧ line.messages = .none ∧
      line.kind.unplaced = .rule (.said (.condition .itemClass) none
        (.names (["", "Old  Boots", "# 1", "12"].map .nowhere)) none)) ∧
    (∃ line, Line.parse "PlayAlertSound \"007\"" 3 none oddVocabulary = .ok line ∧
      line.messages = .none ∧
      line.kind.unplaced = .rule (.said (.action .playAlertSound) none
        (.sound (some ⟨.nowhere (.named "007"), none⟩)) none)) ∧
    ∃ line r, Line.parse "Class <12 Zed" 3 none oddVocabulary = .ok line ∧
      line.kind = .rule r ∧ line.invalid = true ∧ r.Offered oddVocabulary := by
  have hvocabulary : oddSettings.vocabulary oddDisk = .ok oddVocabulary := by decide +kernel
  have hnames : ∀ name ∈ ["", "Old  Boots", "# 1", "12"],
      name ∈ Lexicon.classes.offered oddVocabulary ∧ IsQuotable name := by decide
  have hline := Source.parse_eq_ok ⟨none, oddVocabulary, 0⟩ (show IsRow "Class <12 Zed" by decide) 3
  have hkind : ((⟨none, oddVocabulary, 0⟩ : Source).line "Class <12 Zed" 3).kind =
      .rule ⟨⟨.condition .itemClass, .onRow 3 0 5⟩, some ⟨.less, .onRow 3 6 7⟩,
        .names [⟨"12", .onRow 3 7 9⟩], none⟩ := by decide +kernel
  have hinvalid : ((⟨none, oddVocabulary, 0⟩ : Source).line "Class <12 Zed" 3).invalid = true := by
    decide +kernel
  obtain ⟨hlists, hsounds, hstored, hsettings⟩ := completes oddVocabulary
  exact ⟨⟨hvocabulary, hsettings oddSettings oddDisk hvocabulary⟩,
    hlists .classes _ (by decide) hnames 3 none, hsounds "007" (by decide) (by decide) 3 none,
    _, _, hline, hkind, hinvalid, hstored _ _ _ _ _ hline hkind⟩

end ItemFilter
