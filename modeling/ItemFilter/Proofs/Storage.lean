import ItemFilter.Proofs.Displacement
import ItemFilter.Proofs.Layout
import ItemFilter.Proofs.Names

/-!
# What is said is stored

A text that says something is read as that: nothing is reported, and the rule that is stored is the
one that is said, wherever its tokens stand (`Line.read_of_said`). The step is that a cursor in
front of a token of the right class finds it and stops behind it (`Cursor.next_of_startsWith`); an
argument is read by such steps, one for each of its tokens (`Draft.stores_argument`).

Since the grammar accepts nothing but what says something, the rule of every valid row is one that
is said (`Line.exists_said`).
-/

namespace ItemFilter

open Text Lexeme

/-! ## Cursors in front of tokens -/

namespace Cursor

variable {α : Type} {recognise : List Char → Option (Lexeme α)} {Spells : List Char → α → Prop}
  {Ends : List Char → Prop} {c : Cursor}

/-- A cursor in front of a token finds it and stops behind it. -/
theorem next_of_startsWith (hrec : Recognises recognise Spells Ends) {token rest : List Char}
    {value : α} (hstarts : StartsWith c.remaining token rest) (hspells : Spells token value)
    (hvisible : IsVisible token) (hends : Ends rest) :
    ∃ range c', c.next recognise = some (⟨value, range⟩, c') ∧ c'.remaining = rest := by
  have hahead : c.ahead = token ++ rest := hstarts.trimStart_eq hvisible
  have hnext : c.next recognise = some (⟨value, c.columns c.nextColumn (c.nextColumn +
      token.length)⟩, { c with column := c.nextColumn + token.length }) := by
    rw [next, hahead, hrec.complete hspells hends, Option.map_some]
  refine ⟨_, _, hnext, ?_⟩
  rw [remaining, ← List.drop_drop, ← ahead_eq_drop, hahead, List.drop_left]

/-- A cursor in front of an argument of a class finds it and stops behind it. -/
theorem next_of_lined (hreads : Draft.Reads recognise Spells) {token tail : List Char}
    {tokens : List (List Char)} {value : α} (h : Lined (token :: tokens) c.remaining tail)
    (hspells : Spells token value) :
    ∃ range c', c.next recognise = some (⟨value, range⟩, c') ∧ Lined tokens c'.remaining tail := by
  cases h with
  | cons hstarts hrest hlined =>
    obtain ⟨range, c', hnext, hremaining⟩ := next_of_startsWith hreads.recognises hstarts hspells
      (hreads.isString hspells).isVisible hrest
    exact ⟨range, c', hnext, hremaining ▸ hlined⟩

/-- In front of blanks and a comment there is no argument. -/
theorem next_of_ignorable (hreads : Draft.Reads recognise Spells) (h : Ignorable c.remaining) :
    c.next recognise = none := by
  rw [next_eq_none_iff hreads.recognises fun hspells => (hreads.isString hspells).isVisible]
  rintro ⟨token, value, rest, hspells, hstarts, -⟩
  exact h.not_startsWith (hreads.isString hspells) hstarts

/-- In front of a name there is no number. -/
theorem next_number_of_lined {token tail : List Char} {tokens : List (List Char)} {name : String}
    (h : Lined (token :: tokens) c.remaining tail) (hspells : SpellsString token name)
    (hnumber : ¬ ∃ n, SpellsInteger token n) : c.next number? = none := by
  rw [next_eq_none_iff recognises_number fun hspells =>
    (Draft.reads_number.isString hspells).isVisible]
  rintro ⟨token', value, rest', hspells', hstarts', hrest'⟩
  cases h with
  | cons hstarts hrest _ =>
    -- The number would be the token of the name.
    obtain ⟨rfl, -⟩ := hstarts.unique hstarts' ⟨name, hspells⟩
      (Draft.reads_number.isString hspells') hrest hrest'
    obtain ⟨n, hn, -⟩ := hspells'
    exact hnumber ⟨n, hn⟩

/-- The strings in front of a cursor are read in order, up to the tail. -/
theorem strings_of_lined {tokens : List (List Char)} {values : List String} {tail : List Char}
    (hspells : List.Forall₂ SpellsString tokens values) (h : Lined tokens c.remaining tail)
    (htail : Ignorable tail) :
    ∃ found last, c.strings = (found, last) ∧ found.map Token.value = values ∧
      last.remaining = tail := by
  -- The tokens are gone through in order, and each moves the cursor to the next.
  induction hspells generalizing c with
  | nil =>
    cases h
    exact ⟨[], c, strings_of_none (next_of_ignorable Draft.reads_string htail), rfl, rfl⟩
  | @cons _ value _ _ hstring _ ih =>
    obtain ⟨range, c', hnext, hlined⟩ := next_of_lined Draft.reads_string h hstring
    obtain ⟨found, last, hstrings, hvalues, hlast⟩ := ih hlined
    refine ⟨⟨value, range⟩ :: found, last, ?_, ?_, hlast⟩
    · rw [strings_of_some hnext, hstrings]
    · rw [List.map_cons, hvalues]

/-- A cursor in front of what a rule says passes the operator. -/
theorem passes_of_heads {name : RuleName} {operator : Option Operator} {rest : List Char}
    (h : name.Heads c.remaining operator rest) (hstops : Stops isComparison (trimStart rest)) :
    ∃ found behind, c.Passes found behind ∧ found.map Token.value = operator ∧
      behind.remaining = rest ∧ ∀ op ∈ found, name.operatorProblem? name.name op.value = none := by
  cases h with
  | absent =>
    -- An operator would start with a comparison sign, and no argument does.
    refine ⟨none, c, .absent ?_, rfl, rfl, nofun⟩
    rw [next_eq_none_iff recognises_operator fun hop => hop ▸ isVisible_symbol _]
    rintro ⟨token, op, rest, rfl, hstarts, -⟩
    rw [hstarts.trimStart_eq (isVisible_symbol op)] at hstops
    obtain ⟨ch, tail, hsymbol, -⟩ := isVisible_symbol op
    have hcomparison := isComparison_of_mem_symbol op ch (by rw [hsymbol]; exact List.mem_cons_self)
    rw [hsymbol, List.cons_append, stops_cons, hcomparison] at hstops
    cases hstops
  | present hpermitted hstarts hends =>
    obtain ⟨range, behind, hnext, hremaining⟩ := next_of_startsWith recognises_operator hstarts
      (show SpellsOperator _ _ from rfl) (isVisible_symbol _) hends
    refine ⟨some _, behind, .present hnext, rfl, hremaining, ?_⟩
    rintro _ ⟨⟩
    exact hpermitted

end Cursor

/-! ## Rules -/

namespace Draft

variable {α : Type} {recognise : List Char → Option (Lexeme α)} {Spells : List Char → α → Prop}
  {d e : Draft} {token tail : List Char} {tokens : List (List Char)}

/-- A rule ends in front of a tail without a further report, and stores this argument, wherever its
tokens stand. -/
def Stores (d : Draft) (a : Argument) (tail : List Char) (o : Outcome Argument) : Prop :=
  ∃ stored c, stored.unplaced = a ∧ c.remaining = tail ∧
    o = ({ d with cursor := c } : Draft).finish stored

/-- An argument that may be missing is read where its token stands. -/
theorem take_of_lined (hreads : Reads recognise Spells) {value : α}
    (h : Lined (token :: tokens) d.rest tail) (hspells : Spells token value) :
    ∃ range c, d.take recognise = (some ⟨value, range⟩, { d with cursor := c }) ∧
      Lined tokens c.remaining tail := by
  obtain ⟨range, c, hnext, hlined⟩ := Cursor.next_of_lined hreads h hspells
  refine ⟨range, c, ?_, hlined⟩
  unfold take
  rw [hnext]

/-- A required argument is read where its token stands. -/
theorem require_of_lined (hreads : Reads recognise Spells) {value : α}
    (h : Lined (token :: tokens) d.rest tail) (hspells : Spells token value) (kind : Kind) :
    ∃ range c, d.require kind recognise = (some ⟨value, range⟩, { d with cursor := c }) ∧
      Lined tokens c.remaining tail := by
  obtain ⟨range, c, htake, hlined⟩ := take_of_lined hreads h hspells
  refine ⟨range, c, ?_, hlined⟩
  unfold require
  rw [htake]

/-- A number within bounds that can be converted is converted. -/
theorem bounded_of_contains {bounds : Bounds} (convert? : Int → Option α) {n : Int} {value : α}
    (hcontains : bounds.contains n = true) (hconvert : convert? n = some value) (range : Range) :
    d.bounded ⟨n, range⟩ bounds convert? = (some ⟨value, range⟩, d) := by
  unfold bounded
  rw [if_pos hcontains, hconvert]
  rfl

/-- The value of a channel is within bounds. -/
theorem contains_channel (byte : UInt8) : Bounds.channel.contains byte.toNat = true := by
  have hlt := byte.toNat_lt
  simp only [Bounds.channel, Bounds.contains, Bool.and_eq_true, decide_eq_true_eq]
  omega

/-- A byte is converted from its number. -/
theorem toByte?_toNat (byte : UInt8) : toByte? byte.toNat = some byte := by
  have hlt := byte.toNat_lt
  unfold toByte?
  rw [if_pos (by omega), Int.toNat_natCast, UInt8.ofNat_toNat]

/-- A 16-bit word is converted from its number. -/
theorem toWord16?_toNat (word : UInt16) : toWord16? word.toNat = some word := by
  have hlt := word.toNat_lt
  unfold toWord16?
  rw [if_pos (by omega), Int.toNat_natCast, UInt16.ofNat_toNat]

/-! ### Rules with one argument -/

/-- A number within bounds is stored. -/
theorem stores_number (hop : d.anyOperator = e) (h : Lined [token] e.rest tail) {n : Int}
    (hspells : SpellsNumber token n) {bounds : Bounds} (hcontains : bounds.contains n = true) :
    e.Stores (.number (some (.nowhere n))) tail ((d.numeric bounds).map .number) := by
  obtain ⟨range, c, hrequire, hlined⟩ := require_of_lined reads_number h hspells .number
  cases hlined
  refine ⟨.number (some ⟨n, range⟩), c, rfl, rfl, ?_⟩
  unfold numeric checkBounds
  rw [hop, hrequire]
  dsimp only
  rw [if_pos hcontains, map_finish]

/-- A font size within bounds is stored. -/
theorem stores_fontSize (hop : d.noOperator = e) (h : Lined [token] e.rest tail) {n : Int}
    (hspells : SpellsNumber token n) (hcontains : Bounds.fontSize.contains n = true) :
    e.Stores (.fontSize (some (.nowhere n))) tail (d.fontSize.map .fontSize) := by
  obtain ⟨range, c, hrequire, hlined⟩ := require_of_lined reads_number h hspells .number
  cases hlined
  refine ⟨.fontSize (some ⟨n, range⟩), c, rfl, rfl, ?_⟩
  unfold fontSize checkBounds
  rw [hop, hrequire]
  dsimp only
  rw [if_pos hcontains, map_finish]

/-- A rarity is stored. -/
theorem stores_rarity (hop : d.anyOperator = e) (h : Lined [token] e.rest tail) {r : Rarity}
    (hspells : SpellsString token r.name) :
    e.Stores (.rarity (some (.nowhere r))) tail (d.rarity.map .rarity) := by
  obtain ⟨range, c, hrequire, hlined⟩ := require_of_lined reads_string h hspells .string
  cases hlined
  refine ⟨.rarity (some ⟨r, range⟩), c, rfl, rfl, ?_⟩
  unfold rarity
  rw [hop, hrequire]
  dsimp only
  rw [ofName?_rarity_eq_some_iff.2 rfl, ← map_finish]

/-- A group of sockets is stored in capital letters. -/
theorem stores_socketGroup (hop : d.equalityOperator = e) (h : Lined [token] e.rest tail)
    {group : String} (hspells : SpellsString token group) (hgroup : IsSocketGroup group) :
    e.Stores (.socketGroup (some (.nowhere (String.ofList (group.toList.map Char.toUpper))))) tail
      (d.socketGroup.map .socketGroup) := by
  obtain ⟨range, c, hrequire, hlined⟩ := require_of_lined reads_string h hspells .string
  cases hlined
  refine ⟨.socketGroup (some ⟨String.ofList (group.toList.map Char.toUpper), range⟩), c, rfl, rfl,
    ?_⟩
  unfold socketGroup
  rw [hop, hrequire]
  dsimp only
  rw [if_pos (isSocketGroup_iff.2 hgroup), map_finish]

/-- A truth value is stored. -/
theorem stores_boolean (hop : d.equalityOperator = e) (h : Lined [token] e.rest tail) {b : Bool}
    (hspells : SpellsBoolean token b) :
    e.Stores (.boolean (some (.nowhere b))) tail (d.boolean.map .boolean) := by
  obtain ⟨range, c, hrequire, hlined⟩ := require_of_lined reads_boolean h hspells .boolean
  cases hlined
  refine ⟨.boolean (some ⟨b, range⟩), c, rfl, rfl, ?_⟩
  unfold boolean
  rw [hop, hrequire, ← map_finish]

/-- The path of a sound file is stored if it is not blank. -/
theorem stores_soundFile (hop : d.equalityOperator = e) (h : Lined [token] e.rest tail)
    {path : String} (hspells : SpellsString token path)
    (hvisible : ∃ c ∈ path.toList, isBlank c = false) :
    e.Stores (.soundFile (some (.nowhere path))) tail (d.soundFile.map .soundFile) := by
  obtain ⟨range, c, hrequire, hlined⟩ := require_of_lined reads_string h hspells .string
  cases hlined
  refine ⟨.soundFile (some ⟨path, range⟩), c, rfl, rfl, ?_⟩
  unfold soundFile
  rw [hop, hrequire]
  dsimp only
  rw [if_neg (by simp [isEmpty_trim_iff.2 hvisible]), map_finish]

/-! ### Rules with several arguments -/

/-- Names that the vocabulary accepts are stored in order. -/
theorem stores_names (hop : d.equalityOperator = e) {values : List String}
    (h : Lined tokens e.rest tail) (htail : Ignorable tail)
    (hspells : List.Forall₂ SpellsString tokens values) (hne : values ≠ []) {lexicon : Lexicon}
    {vocabulary : Vocabulary}
    (haccepts : ∀ value ∈ values, lexicon.accepts vocabulary value = true) :
    e.Stores (.names (values.map .nowhere)) tail ((d.names lexicon vocabulary).map .names) := by
  obtain ⟨found, last, hstrings, hvalues, hlast⟩ := Cursor.strings_of_lined hspells h htail
  have haccepted (t : Token String) (ht : t ∈ found) :
      lexicon.accepts vocabulary t.value = true :=
    haccepts t.value (hvalues ▸ List.mem_map_of_mem ht)
  -- There is at least one name, so that none is reported missing.
  have hsome : ¬(d.equalityOperator.cursor.next string? = none ∧
      d.equalityOperator.messages.isEmpty = true) := by
    rw [hop]
    rintro ⟨hnone, -⟩
    rw [Cursor.strings_of_none hnone] at hstrings
    obtain ⟨rfl, -⟩ := Prod.mk.inj hstrings
    exact hne hvalues.symm
  refine ⟨.names found, last, ?_, hlast, ?_⟩
  · rw [← hvalues, List.map_map]
    rfl
  · rw [names_of_some hsome, hop, hstrings]
    dsimp only
    rw [List.filter_eq_self.2 haccepted,
      List.filter_eq_nil_iff.2 fun t ht => by simp [haccepted t ht], map_finish]
    rfl

/-- A colour channel is read where its token stands. -/
theorem channel_of_lined (h : Lined (token :: tokens) d.rest tail) {byte : UInt8}
    (hspells : SpellsChannel token byte) :
    ∃ range c, d.channel = (some (some ⟨byte, range⟩), { d with cursor := c }) ∧
      Lined tokens c.remaining tail := by
  obtain ⟨range, c, hrequire, hlined⟩ := require_of_lined reads_number h hspells .number
  refine ⟨range, c, ?_, hlined⟩
  unfold channel
  rw [hrequire]
  dsimp only
  rw [bounded_of_contains toByte? (contains_channel byte) (toByte?_toNat byte)]

/-- A number that may be missing is read where its token stands, if there is one. -/
theorem optional_of_lined (h : Lined tokens d.rest tail) (htail : Ignorable tail)
    {Spells : List Char → α → Prop} {bounds : Bounds} {convert? : Int → Option α}
    {value : Option α} (hspells : List.Forall₂ Spells tokens value.toList)
    (hconverts : ∀ token, ∀ x ∈ value, Spells token x →
      ∃ n, SpellsNumber token n ∧ bounds.contains n = true ∧ convert? n = some x) :
    ∃ (read : Option (Token α)) (c : Cursor),
      d.optional bounds convert? = (read.map some, { d with cursor := c }) ∧
      read.map (·.mapRange fun _ => .nowhere) = value.map .nowhere ∧ c.remaining = tail := by
  unfold optional
  cases value with
  | none =>
    -- Nothing is left but blanks and a comment, in which a number is not looked for.
    cases hspells
    cases h
    have hnext := Cursor.next_of_ignorable reads_number htail
    refine ⟨none, d.cursor, ?_, rfl, rfl⟩
    unfold take
    rw [hnext]
    rfl
  | some x =>
    rcases hspells with _ | ⟨hx, _ | _⟩
    obtain ⟨n, hn, hcontains, hconvert⟩ := hconverts _ x rfl hx
    obtain ⟨range, c, htake, hlined⟩ := take_of_lined reads_number h hn
    cases hlined
    refine ⟨some ⟨x, range⟩, c, ?_, rfl, rfl⟩
    rw [htake]
    dsimp only
    rw [bounded_of_contains convert? hcontains hconvert]
    rfl

/-- A colour is stored. -/
theorem stores_color (hop : d.equalityOperator = e) {red green blue : List Char}
    (h : Lined (red :: green :: blue :: tokens) e.rest tail) (htail : Ignorable tail)
    {r g b : UInt8} {alpha : Option UInt8} (hred : SpellsChannel red r)
    (hgreen : SpellsChannel green g) (hblue : SpellsChannel blue b)
    (halpha : List.Forall₂ SpellsChannel tokens alpha.toList) :
    e.Stores (.color (some ⟨.nowhere r, .nowhere g, .nowhere b, alpha.map .nowhere⟩)) tail
      (d.color.map .color) := by
  -- Each channel moves the cursor and changes nothing else of the draft.
  obtain ⟨range₁, c₁, hchannel₁, h⟩ := channel_of_lined h hred
  obtain ⟨range₂, c₂, hchannel₂, h⟩ := channel_of_lined (d := { e with cursor := c₁ }) h hgreen
  obtain ⟨range₃, c₃, hchannel₃, h⟩ := channel_of_lined (d := { e with cursor := c₂ }) h hblue
  obtain ⟨read, c₄, hoptional, hread, hlast⟩ :=
    optional_of_lined (d := { e with cursor := c₃ }) h htail halpha fun _ byte _ hbyte =>
      ⟨byte.toNat, hbyte, contains_channel byte, toByte?_toNat byte⟩
  have hcolor : colorOf (some ⟨r, range₁⟩) (some ⟨g, range₂⟩) (some ⟨b, range₃⟩) (read.map some) =
      some ⟨⟨r, range₁⟩, ⟨g, range₂⟩, ⟨b, range₃⟩, read⟩ :=
    colorOf_eq_some_iff.2 ⟨rfl, rfl, rfl, rfl⟩
  refine ⟨.color (some ⟨⟨r, range₁⟩, ⟨g, range₂⟩, ⟨b, range₃⟩, read⟩), c₄, ?_, hlast, ?_⟩
  · show Argument.color (some ⟨_, _, _, read.map _⟩) = _
    rw [hread]
    rfl
  · unfold color
    rw [hop, hchannel₁]
    dsimp only
    rw [hchannel₂]
    dsimp only
    rw [hchannel₃]
    dsimp only
    rw [hoptional]
    dsimp only
    rw [hcolor, map_finish]

/-- A sound is read where its token stands. -/
theorem soundId_of_lined (h : Lined (token :: tokens) d.rest tail) {vocabulary : Vocabulary}
    {id : SoundId} (hid : vocabulary.SpellsSound token id) :
    ∃ range c, d.soundId vocabulary = (some (some ⟨id, range⟩), { d with cursor := c }) ∧
      Lined tokens c.remaining tail := by
  unfold soundId
  cases hid with
  | @numbered number hspells hcontains =>
    obtain ⟨range, c, htake, hlined⟩ := take_of_lined reads_number h hspells
    have hconvert : (toByte? number.toNat).map SoundId.numbered = some (.numbered number) := by
      rw [toByte?_toNat]
      rfl
    refine ⟨range, c, ?_, hlined⟩
    rw [htake]
    dsimp only
    rw [bounded_of_contains (fun n => (toByte? n).map SoundId.numbered) hcontains hconvert]
  | named hnumber hspells hknown =>
    -- A name is looked for because there is no number.
    have hnone : d.take number? = (none, d) := by
      unfold take
      rw [Cursor.next_number_of_lined h hspells hnumber]
    obtain ⟨range, c, htake, hlined⟩ := take_of_lined reads_string h hspells
    refine ⟨range, c, ?_, hlined⟩
    rw [hnone]
    dsimp only
    rw [htake]
    dsimp only
    rw [if_pos hknown]
    rfl

/-- An alert sound is stored. -/
theorem stores_sound (hop : d.equalityOperator = e) (h : Lined (token :: tokens) e.rest tail)
    (htail : Ignorable tail) {vocabulary : Vocabulary} {id : SoundId} {volume : Option UInt16}
    (hid : vocabulary.SpellsSound token id)
    (hvolume : List.Forall₂ SpellsVolume tokens volume.toList)
    (hcontains : ∀ n ∈ volume, Bounds.volume.contains n.toNat = true) :
    e.Stores (.sound (some ⟨.nowhere id, volume.map .nowhere⟩)) tail
      ((d.alertSound vocabulary).map .sound) := by
  obtain ⟨range, c₁, hsound, h⟩ := soundId_of_lined h hid
  obtain ⟨read, c₂, hoptional, hread, hlast⟩ :=
    optional_of_lined (d := { e with cursor := c₁ }) h htail hvolume fun _ word hword hspells =>
      ⟨word.toNat, hspells, hcontains word hword, toWord16?_toNat word⟩
  have halert : alertSoundOf (some ⟨id, range⟩) (read.map some) = some ⟨⟨id, range⟩, read⟩ :=
    alertSoundOf_eq_some_iff.2 ⟨rfl, rfl⟩
  refine ⟨.sound (some ⟨⟨id, range⟩, read⟩), c₂, ?_, hlast, ?_⟩
  · show Argument.sound (some ⟨_, read.map _⟩) = _
    rw [hread]
    rfl
  · unfold alertSound
    rw [hop, hsound]
    dsimp only
    rw [hoptional]
    dsimp only
    rw [halert, map_finish]

/-! ### All rules -/

/-- A draft that was just started, behind an operator that the rule takes. -/
theorem readOperator_of_permitted {c behind : Cursor} {operator : Option (Token Operator)}
    (h : c.Passes operator behind) {name : RuleName} {keyword : String}
    (hpermitted : ∀ op ∈ operator, name.operatorProblem? keyword op.value = none)
    (file : Option String) :
    (start c keyword file).readOperator name = ⟨behind, keyword, file, operator, .none⟩ := by
  cases h with
  | absent hnone => exact readOperator_of_none (d := start c keyword file) hnone name
  | @present op _ hsome =>
    have hread := readOperator_of_some (d := start c keyword file) hsome name
    have hright : name.operatorProblem? (start c keyword file).keyword op.value = none :=
      hpermitted op rfl
    rw [hright] at hread
    exact hread

/-- Behind an operator that the rule takes, what the tokens spell is stored. -/
theorem stores_argument {pattern : Pattern} (hop : d.patternOperator pattern = e)
    {vocabulary : Vocabulary} {a : Argument} (hspells : pattern.Spells vocabulary tokens a)
    (h : Lined tokens e.rest tail) (htail : Ignorable tail) :
    e.Stores a tail (d.patternArgument vocabulary pattern) := by
  cases hspells with
  | number hspells hcontains => exact stores_number hop h hspells hcontains
  | rarity hspells => exact stores_rarity hop h hspells
  | socketGroup hspells hgroup => exact stores_socketGroup hop h hspells hgroup
  | boolean hspells => exact stores_boolean hop h hspells
  | names hspells hne haccepts => exact stores_names hop h htail hspells hne haccepts
  | color hred hgreen hblue halpha => exact stores_color hop h htail hred hgreen hblue halpha
  | sound hid hvolume hcontains => exact stores_sound hop h htail hid hvolume hcontains
  | fontSize hspells hcontains => exact stores_fontSize hop h hspells hcontains
  | soundFile hspells hvisible => exact stores_soundFile hop h hspells hvisible
  | flag =>
    cases h
    refine ⟨.flag, e.cursor, rfl, rfl, ?_⟩
    unfold patternArgument flag
    rw [show d.noOperator = e from hop, map_finish]

end Draft

/-- The rule that is said, without places. -/
def Rule.said (name : RuleName) (operator : Option Operator) (a : Argument)
    (comment : Option String) : Rule :=
  ⟨.nowhere name, operator.map .nowhere, a, comment.map .nowhere⟩

/-! ## Rows -/

namespace Line

/-- Behind the keyword of a rule, what is said is stored and nothing is reported. -/
theorem recognised_of_said {name : RuleName} {vocabulary : Vocabulary} {c : Cursor}
    {operator : Option Operator} {a : Argument} {comment : Option String}
    (h : name.Says vocabulary c.remaining operator a comment) (range : Range)
    (file : Option String) :
    ∃ line, recognised c ⟨name.name, range⟩ (.rule name) file vocabulary = line ∧
      line.invalid = false ∧ line.messages = .none ∧
      line.kind.unplaced = .rule (.said name operator a comment) := by
  obtain ⟨rest, tokens, tail, hheads, hspells, hlined, htail, hcomment⟩ := h
  have hstops := (hlined.laid hspells.isString htail).stops_isComparison
  obtain ⟨found, behind, hpasses, hfound, rfl, hpermitted⟩ :=
    Cursor.passes_of_heads hheads hstops
  have hop : (Draft.start c name.name file).patternOperator name.pattern =
      ⟨behind, name.name, file, found, .none⟩ := by
    rw [← Draft.readOperator_eq_pattern]
    exact Draft.readOperator_of_permitted hpasses hpermitted file
  obtain ⟨stored, last, hstored, hlast, houtcome⟩ :=
    Draft.stores_argument hop hspells hlined htail
  -- The rule ends in front of what can be ignored.
  have hignored : last.isIgnored = true := Cursor.isIgnored_iff.2 (hlast ▸ htail)
  have hread := last.value_comment
  rw [hlast, hcomment] at hread
  rw [← Draft.argument_eq_pattern, Draft.finish, Draft.close_eq] at houtcome
  dsimp only at houtcome
  rw [if_pos hignored] at houtcome
  unfold recognised
  dsimp only
  rw [houtcome]
  have hnowhere {α : Type} (token : Option (Token α)) :
      (token.map Token.value).map .nowhere = token.map (·.mapRange fun _ => .nowhere) :=
    Option.map_map _ _ _
  refine ⟨_, rfl, rfl, rfl, ?_⟩
  rw [Rule.said, ← hread, ← hfound, ← hstored, hnowhere, hnowhere]
  rfl

/-- A row that starts with the keyword of a rule and says something behind it is read as that. -/
theorem read_of_said {name : RuleName} {vocabulary : Vocabulary} {c : Cursor} {cs : List Char}
    {operator : Option Operator} {a : Argument} {comment : Option String}
    (hstarts : StartsWith c.remaining name.name.toList cs) (hboundary : atBoundary cs = true)
    (h : name.Says vocabulary cs operator a comment) (file : Option String) :
    ∃ line, read c file vocabulary = line ∧ line.invalid = false ∧ line.messages = .none ∧
      line.kind.unplaced = .rule (.said name operator a comment) := by
  have hspells := Keyword.spellsWord_name (.rule name)
  obtain ⟨range, c', hnext, rfl⟩ := Cursor.next_of_startsWith recognises_word hstarts hspells
    hspells.isBareString.isString.isVisible hboundary
  have hkeyword : Keyword.ofName? name.name = some (.rule name) :=
    Keyword.ofName?_eq_some_iff.2 rfl
  rw [read_of_keyword hnext hkeyword]
  exact recognised_of_said h range file

/-- Rows with one blank between them make a row. -/
theorem isRow_intercalate {first : String} {parts : List String} (hfirst : IsRow first)
    (hparts : ∀ part ∈ parts, IsRow part) : IsRow (" ".intercalate (first :: parts)) := by
  intro c hc
  rw [toList_intercalate, List.mem_append] at hc
  rcases hc with hc | hc
  · exact hfirst c hc
  · obtain ⟨part, hpart, hc⟩ := List.mem_flatMap.1 hc
    rcases List.mem_cons.1 hc with rfl | hc
    · decide
    · exact hparts part hpart c hc

/-- A character that is not blank is no line break. -/
theorem isLineBreak_of_visible {c : Char} (h : isBlank c = false) : isLineBreak c = false := by
  by_contra hbreak
  rcases isLineBreak_iff.1 (Bool.eq_true_of_not_eq_false hbreak) with rfl | rfl
  all_goals exact absurd h (by decide)

/-- The keyword of a rule is a row. -/
theorem isRow_name (name : RuleName) : IsRow name.name :=
  fun c hc => isLineBreak_of_visible
    ((Keyword.spellsWord_name (.rule name)).isBareString.isBlank_eq_false c hc)

/-- A keyword and parts with one blank in front of each are read as what the parts say. -/
theorem parse_of_said (name : RuleName) {vocabulary : Vocabulary} {parts : List String}
    {operator : Option Operator} {a : Argument} {comment : Option String}
    (hrow : IsRow (" ".intercalate (name.name :: parts)))
    (h : name.Says vocabulary (spaced parts) operator a comment) (row : Nat)
    (file : Option String) :
    ∃ line, parse (" ".intercalate (name.name :: parts)) row file vocabulary = .ok line ∧
      line.invalid = false ∧ line.messages = .none ∧
      line.kind.unplaced = .rule (.said name operator a comment) := by
  have hparse := Source.parse_eq_ok ⟨file, vocabulary, 0⟩ hrow row
  have hstarts : StartsWith (" ".intercalate (name.name :: parts)).toList name.name.toList
      (spaced parts) := ⟨[], nofun, toList_intercalate name.name parts⟩
  have hboundary : atBoundary (spaced parts) = true := by
    rw [← List.append_nil (spaced parts)]
    exact atBoundary_spaced parts rfl
  obtain ⟨line, rfl, hline⟩ :=
    read_of_said (c := ⟨row, (" ".intercalate (name.name :: parts)).toList, 0⟩) hstarts hboundary h
      file
  exact ⟨_, hparse, hline⟩

/-- A text that is read is one row, and its line is what is read from its start. -/
theorem eq_read_of_parse {text : String} {row : Nat} {file : Option String}
    {vocabulary : Vocabulary} {line : Line} (h : parse text row file vocabulary = .ok line) :
    IsRow text ∧ line = read ⟨row, text.toList, 0⟩ file vocabulary := by
  have hrow : IsRow text := by
    by_contra hnot
    rw [parse, Cursor.ofRow_eq_error hnot] at h
    cases h
  have hparse := Source.parse_eq_ok ⟨file, vocabulary, 0⟩ hrow row
  exact ⟨hrow, Except.ok.inj (h.symm.trans hparse)⟩

/-- The line of a rule starts with the keyword of the rule. -/
theorem exists_keyword {c : Cursor} {file : Option String} {vocabulary : Vocabulary} {r : Rule}
    (h : (read c file vocabulary).kind = .rule r) :
    ∃ range c', c.next word? = some (⟨r.name.value.name, range⟩, c') ∧
      read c file vocabulary =
        recognised c' ⟨r.name.value.name, range⟩ (.rule r.name.value) file vocabulary := by
  cases hnext : c.next word? with
  | none =>
    -- Without a word, the row is blank, a comment or unreadable.
    unfold read at h
    rw [hnext] at h
    split_ifs at h
    · cases h
    · split at h <;> cases h
  | some found =>
    obtain ⟨⟨word, range⟩, c'⟩ := found
    cases hkeyword : Keyword.ofName? word with
    | none =>
      rw [read_of_unknown hnext hkeyword] at h
      cases h
    | some keyword =>
      have hread := read_of_keyword hnext hkeyword file vocabulary
      obtain rfl := Keyword.ofName?_eq_some_iff.1 hkeyword
      rw [hread] at h
      cases keyword with
      | block visibility => cases h
      | rule name =>
        obtain rfl : name = r.name.value := congrArg (fun r => r.name.value) (LineKind.rule.inj h)
        exact ⟨range, c', rfl, hread⟩

/-- The rule of a valid row is one that is said behind its keyword. -/
theorem exists_said {c : Cursor} {file : Option String} {vocabulary : Vocabulary} {r : Rule}
    (hrule : (read c file vocabulary).kind = .rule r)
    (hvalid : (read c file vocabulary).invalid = false) :
    ∃ cs operator a comment, StartsWith c.remaining r.name.value.name.toList cs ∧
      r.name.value.Says vocabulary cs operator a comment ∧
      (LineKind.rule r).unplaced = .rule (.said r.name.value operator a comment) := by
  obtain ⟨range, c', hnext, hread⟩ := exists_keyword hrule
  rw [hread] at hrule hvalid
  -- A valid row is one that the grammar accepts, and so says something; that is what is stored.
  have haccepts := (invalid_recognised_rule_iff c' _ r.name.value file vocabulary).1 hvalid
  obtain ⟨operator, a, comment, hsaid⟩ := RuleName.exists_said haccepts
  obtain ⟨token, ⟨-, -, hword⟩, hstarts, -⟩ := Cursor.next_eq_some recognises_word hnext
  obtain rfl : token = r.name.value.name.toList := by
    rw [show r.name.value.name = String.ofList token from hword, String.toList_ofList]
  obtain ⟨line, rfl, -, -, hkind⟩ := recognised_of_said hsaid range file
  rw [hrule] at hkind
  exact ⟨c'.remaining, operator, a, comment, hstarts, hsaid, hkind⟩

end Line

end ItemFilter
