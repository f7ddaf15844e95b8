import ItemFilter.Proofs.Placement
import ItemFilter.Proofs.Unplaced

/-!
# How rules are written

What the text behind a keyword says: an operator or none, an argument and a comment or none
(`RuleName.Says`). Which tokens spell which argument depends on the pattern of the rule alone
(`Pattern.Spells`), and the tokens may stand anywhere as long as blanks are between them (`Lined`).

The grammar only tells which texts are right. What it accepts says something
(`RuleName.exists_said`), because every token that a slot takes spells a value.
-/

namespace ItemFilter

open Text Lexeme

/-! ## Tokens one behind the other -/

/-- Tokens stand one behind the other at the start of a text, each behind blanks and in front of a
blank or the end, and a tail follows them. -/
inductive Lined : List (List Char) → List Char → List Char → Prop
  | nil {cs : List Char} : Lined [] cs cs
  | cons {token rest cs tail : List Char} {tokens : List (List Char)} :
    StartsWith cs token rest → atBoundary rest = true → Lined tokens rest tail →
      Lined (token :: tokens) cs tail

/-- Arguments that are laid out for slots are tokens that the slots take, one behind the other. -/
theorem Laid.exists_lined {slots : List Slot} {cs : List Char} (h : Laid slots cs) :
    ∃ tokens tail, List.Forall₂ Slot.Takes slots tokens ∧ Lined tokens cs tail ∧
      Ignorable tail := by
  induction h with
  | nil hignorable => exact ⟨[], _, .nil, .nil, hignorable⟩
  | cons hstarts htakes hrest _ ih =>
    obtain ⟨tokens, tail, htokens, hlined, htail⟩ := ih
    exact ⟨_, tail, .cons htakes htokens, .cons hstarts hrest hlined, htail⟩

namespace Lined

variable {tokens : List (List Char)} {cs tail : List Char}

/-- Strings one behind the other in front of blanks and a comment are laid out for slots that take
any string. -/
theorem laid (h : Lined tokens cs tail) (htokens : ∀ token ∈ tokens, IsString token)
    (htail : Ignorable tail) : Laid (tokens.map fun _ => ⟨IsString, id⟩) cs := by
  induction h with
  | nil => exact .nil htail
  | cons hstarts hrest _ ih =>
    obtain ⟨htoken, htokens⟩ := List.forall_mem_cons.1 htokens
    exact .cons hstarts htoken hrest (ih htokens htail)

/-- The tokens and the tail are parts of the text. -/
theorem mem (h : Lined tokens cs tail) {c : Char} (hc : (∃ token ∈ tokens, c ∈ token) ∨ c ∈ tail) :
    c ∈ cs := by
  induction h with
  | nil => simpa using hc
  | cons hstarts _ _ ih =>
    obtain ⟨blanks, -, rfl⟩ := hstarts
    rw [List.mem_append, List.mem_append]
    rcases hc with ⟨token, htoken, hc⟩ | hc
    · rcases List.mem_cons.1 htoken with rfl | htoken
      · exact .inl (.inr hc)
      · exact .inr (ih (.inl ⟨token, htoken, hc⟩))
    · exact .inr (ih (.inr hc))

end Lined

/-! ### One blank between the tokens -/

/-- Texts one behind the other, each behind one blank. -/
def Text.spaced (parts : List String) : List Char := parts.flatMap fun part => ' ' :: part.toList

/-- Joining texts by blanks puts one blank in front of each but the first. -/
theorem toList_intercalate (first : String) (parts : List String) :
    (" ".intercalate (first :: parts)).toList = first.toList ++ spaced parts := by
  induction parts generalizing first with
  | nil => simp [spaced]
  | cons part parts ih =>
    rw [String.intercalate_cons_cons, String.toList_append, ih, String.toList_append]
    simp [spaced]

/-- Behind a text, texts that are each behind one blank are a boundary. -/
theorem atBoundary_spaced (parts : List String) {tail : List Char}
    (htail : atBoundary tail = true) : atBoundary (spaced parts ++ tail) = true := by
  cases parts with
  | nil => exact htail
  | cons part parts => rfl

/-- Texts that are each behind one blank are tokens one behind the other. -/
theorem lined_spaced (parts : List String) {tail : List Char} (htail : atBoundary tail = true) :
    Lined (parts.map String.toList) (spaced parts ++ tail) tail := by
  induction parts with
  | nil => exact .nil
  | cons part parts ih =>
    have hstarts : StartsWith (spaced (part :: parts) ++ tail) part.toList
        (spaced parts ++ tail) := by
      refine ⟨[' '], List.forall_mem_singleton.2 (by decide), ?_⟩
      simp [spaced]
    exact .cons hstarts (atBoundary_spaced parts htail) ih

/-! ### Strings in quotes -/

/-- A text in quotes is the text between two quotes. -/
theorem toList_quoted (text : String) : (quoted text).toList = '"' :: text.toList ++ ['"'] := by
  unfold quoted
  rw [String.toList_append, String.toList_append]
  rfl

/-- In quotes, a text has its own characters and quotes. -/
theorem mem_quoted_iff {text : String} {c : Char} :
    c ∈ (quoted text).toList ↔ c = '"' ∨ c ∈ text.toList := by
  rw [toList_quoted, List.cons_append, List.mem_cons, List.mem_append, List.mem_singleton]
  tauto

/-- A string without quotes is spelled by itself in quotes. -/
theorem spellsString_quoted {value : String} (h : '"' ∉ value.toList) :
    SpellsString (quoted value).toList value := by
  have hspells := SpellsString.quoted h
  rwa [String.ofList_toList, ← toList_quoted] at hspells

/-! ## Comments -/

/-- The comment with which a text starts behind blanks, without the blanks at its end. -/
def Text.comment? (cs : List Char) : Option String :=
  if (trimStart cs).head? = some '#' then some (String.ofList (trimEnd (trimStart cs))) else none

/-- A cursor reads the comment with which the text in front of it starts. -/
theorem Cursor.value_comment (c : Cursor) :
    (c.comment.map Prod.fst).map Token.value = comment? c.remaining := by
  have hiff : c.isCommented = true ↔ (trimStart c.remaining).head? = some '#' := by
    simp [isCommented, ahead]
  by_cases hcommented : c.isCommented = true
  · obtain ⟨last, hcomment⟩ := comment_eq hcommented
    rw [hcomment, comment?, if_pos (hiff.1 hcommented)]
    rfl
  · rw [comment, if_neg hcommented, comment?, if_neg (hiff.not.1 hcommented)]
    rfl

/-! ## Patterns -/

/-- The patterns of rules: which arguments a rule takes. -/
inductive Pattern where
  | number (bounds : Bounds)
  | rarity
  | socketGroup
  | boolean
  | names (lexicon : Lexicon)
  | color
  | sound
  | fontSize
  | soundFile
  | flag
deriving DecidableEq, Repr

/-- The pattern of a rule. -/
def RuleName.pattern : RuleName → Pattern
  | .condition .itemLevel | .condition .dropLevel => .number .level
  | .condition .quality => .number .quality
  | .condition .sockets => .number .sockets
  | .condition .linkedSockets => .number .linkedSockets
  | .condition .height => .number .height
  | .condition .width => .number .width
  | .condition .socketGroup => .socketGroup
  | .condition .rarity => .rarity
  | .condition .itemClass => .names .classes
  | .condition .baseType => .names .bases
  | .condition .identified | .condition .corrupted | .condition .elderItem
  | .condition .shaperItem | .condition .shapedMap | .condition .elderMap => .boolean
  | .action .setBorderColor | .action .setTextColor | .action .setBackgroundColor => .color
  | .action .playAlertSound | .action .playAlertSoundPositional => .sound
  | .action .setFontSize => .fontSize
  | .action .disableDropSound => .flag
  | .action .customAlertSound => .soundFile

namespace Draft

/-- Reads the operator of a rule with this pattern. -/
def patternOperator (d : Draft) : Pattern → Draft
  | .number _ | .rarity => d.anyOperator
  | .fontSize | .flag => d.noOperator
  | _ => d.equalityOperator

/-- Reads a rule with this pattern. -/
def patternArgument (d : Draft) (vocabulary : Vocabulary) : Pattern → Outcome Argument
  | .number bounds => (d.numeric bounds).map .number
  | .rarity => d.rarity.map .rarity
  | .socketGroup => d.socketGroup.map .socketGroup
  | .boolean => d.boolean.map .boolean
  | .names lexicon => (d.names lexicon vocabulary).map .names
  | .color => d.color.map .color
  | .sound => (d.alertSound vocabulary).map .sound
  | .fontSize => d.fontSize.map .fontSize
  | .soundFile => d.soundFile.map .soundFile
  | .flag => d.flag.map fun _ => .flag

/-- How the operator of a rule is read depends on the pattern of the rule alone. -/
theorem readOperator_eq_pattern (d : Draft) (name : RuleName) :
    d.readOperator name = d.patternOperator name.pattern := by
  cases name with
  | condition condition => cases condition <;> rfl
  | action action => cases action <;> rfl

/-- How a rule is read depends on its pattern alone. -/
theorem argument_eq_pattern (d : Draft) (vocabulary : Vocabulary) (name : RuleName) :
    d.argument vocabulary name = d.patternArgument vocabulary name.pattern := by
  cases name with
  | condition condition => cases condition <;> rfl
  | action action => cases action <;> rfl

end Draft

/-- A value at no place. -/
def Token.nowhere {α : Type} (value : α) : Token α := ⟨value, .nowhere⟩

/-- A token spells a sound of a vocabulary, by its number or by its name. -/
inductive Vocabulary.SpellsSound (vocabulary : Vocabulary) (token : List Char) : SoundId → Prop
  | numbered {number : UInt8} : SpellsNumber token number.toNat →
    Bounds.soundNumber.contains number.toNat = true →
    SpellsSound vocabulary token (.numbered number)
  /-- A token that spells an integer is no name. -/
  | named {name : String} : (¬ ∃ n, SpellsInteger token n) → SpellsString token name →
    vocabulary.isSound name = true → SpellsSound vocabulary token (.named name)

/-- Tokens spell the argument of a rule with this pattern. The argument is given without places. -/
inductive Pattern.Spells (vocabulary : Vocabulary) :
    Pattern → List (List Char) → Argument → Prop
  | number {bounds : Bounds} {token : List Char} {n : Int} :
    SpellsNumber token n → bounds.contains n = true →
    Spells vocabulary (.number bounds) [token] (.number (some (.nowhere n)))
  | rarity {token : List Char} {r : Rarity} : SpellsString token r.name →
    Spells vocabulary .rarity [token] (.rarity (some (.nowhere r)))
  | socketGroup {token : List Char} {group : String} :
    SpellsString token group → IsSocketGroup group →
    Spells vocabulary .socketGroup [token]
      (.socketGroup (some (.nowhere (String.ofList (group.toList.map Char.toUpper)))))
  | boolean {token : List Char} {b : Bool} : SpellsBoolean token b →
    Spells vocabulary .boolean [token] (.boolean (some (.nowhere b)))
  | names {lexicon : Lexicon} {tokens : List (List Char)} {values : List String} :
    List.Forall₂ SpellsString tokens values → values ≠ [] →
    (∀ value ∈ values, lexicon.accepts vocabulary value = true) →
    Spells vocabulary (.names lexicon) tokens (.names (values.map .nowhere))
  | color {red green blue : List Char} {tokens : List (List Char)} {r g b : UInt8}
      {alpha : Option UInt8} :
    SpellsChannel red r → SpellsChannel green g → SpellsChannel blue b →
    List.Forall₂ SpellsChannel tokens alpha.toList →
    Spells vocabulary .color (red :: green :: blue :: tokens)
      (.color (some ⟨.nowhere r, .nowhere g, .nowhere b, alpha.map .nowhere⟩))
  | sound {token : List Char} {tokens : List (List Char)} {id : SoundId}
      {volume : Option UInt16} :
    vocabulary.SpellsSound token id → List.Forall₂ SpellsVolume tokens volume.toList →
    (∀ n ∈ volume, Bounds.volume.contains n.toNat = true) →
    Spells vocabulary .sound (token :: tokens)
      (.sound (some ⟨.nowhere id, volume.map .nowhere⟩))
  | fontSize {token : List Char} {n : Int} :
    SpellsNumber token n → Bounds.fontSize.contains n = true →
    Spells vocabulary .fontSize [token] (.fontSize (some (.nowhere n)))
  | soundFile {token : List Char} {path : String} :
    SpellsString token path → (∃ c ∈ path.toList, isBlank c = false) →
    Spells vocabulary .soundFile [token] (.soundFile (some (.nowhere path)))
  | flag : Spells vocabulary .flag [] .flag

/-- Tokens that spell values of a class of strings are strings. -/
theorem isString_of_forall₂ {α : Type} {Spells : List Char → α → Prop}
    (hstring : ∀ {token value}, Spells token value → IsString token) {tokens : List (List Char)}
    {values : List α} (h : List.Forall₂ Spells tokens values) :
    ∀ token ∈ tokens, IsString token := by
  induction h with
  | nil => exact nofun
  | cons hspells _ ih => exact List.forall_mem_cons.2 ⟨hstring hspells, ih⟩

/-- Tokens that spell an argument are strings. -/
theorem Pattern.Spells.isString {vocabulary : Vocabulary} {pattern : Pattern}
    {tokens : List (List Char)} {a : Argument} (h : pattern.Spells vocabulary tokens a) :
    ∀ token ∈ tokens, IsString token := by
  have hnumber {token : List Char} {n : Int} (h : SpellsNumber token n) : IsString token :=
    Draft.reads_number.isString h
  cases h with
  | number hspells _ | fontSize hspells _ => exact List.forall_mem_singleton.2 (hnumber hspells)
  | rarity hspells => exact List.forall_mem_singleton.2 ⟨_, hspells⟩
  | socketGroup hspells _ | soundFile hspells _ => exact List.forall_mem_singleton.2 ⟨_, hspells⟩
  | boolean hspells => exact List.forall_mem_singleton.2 hspells.isString
  | names hspells _ _ => exact isString_of_forall₂ (fun h => ⟨_, h⟩) hspells
  | color hred hgreen hblue halpha =>
    simp only [List.forall_mem_cons]
    exact ⟨hnumber hred, hnumber hgreen, hnumber hblue, isString_of_forall₂ hnumber halpha⟩
  | sound hid hvolume _ =>
    refine List.forall_mem_cons.2 ⟨?_, isString_of_forall₂ hnumber hvolume⟩
    cases hid with
    | numbered hspells _ => exact hnumber hspells
    | named _ hspells _ => exact ⟨_, hspells⟩
  | flag => exact nofun

/-- An operator that a rule takes stands in front of a rest, or none does. -/
inductive RuleName.Heads (name : RuleName) (cs : List Char) : Option Operator → List Char → Prop
  | absent : Heads name cs none cs
  | present {op : Operator} {rest : List Char} : name.operatorProblem? name.name op = none →
    StartsWith cs op.symbol.toList rest → Stops isComparison rest → Heads name cs (some op) rest

/-- What the text behind the keyword of a rule says: an operator or none, an argument, which is
given without places, and a comment or none. -/
def RuleName.Says (name : RuleName) (vocabulary : Vocabulary) (cs : List Char)
    (operator : Option Operator) (a : Argument) (comment : Option String) : Prop :=
  ∃ rest tokens tail, name.Heads cs operator rest ∧ name.pattern.Spells vocabulary tokens a ∧
    Lined tokens rest tail ∧ Ignorable tail ∧ comment? tail = comment

/-! ## What the grammar accepts says something -/

/-- The operators of the grammar are those with which nothing is wrong. -/
theorem RuleName.mem_operators_iff {name : RuleName} {vocabulary : Vocabulary} {keyword : String}
    {op : Operator} :
    op ∈ (name.shape vocabulary).operators ↔ name.operatorProblem? keyword op = none := by
  cases name with
  | condition condition =>
    cases condition with
    | itemLevel | dropLevel | quality | sockets | linkedSockets | height | width | rarity =>
      exact iff_of_true (Set.mem_univ op) rfl
    | socketGroup | itemClass | baseType | identified | corrupted | elderItem | shaperItem
    | shapedMap | elderMap =>
      show op = .equal ↔ (if op = .equal then none else some _) = none
      simp
  | action action =>
    cases action with
    | setBorderColor | setTextColor | setBackgroundColor | playAlertSound
    | playAlertSoundPositional | customAlertSound =>
      show op = .equal ↔ (if op = .equal then none else some _) = none
      simp
    | setFontSize | disableDropSound => exact iff_of_false (Set.notMem_empty op) nofun

namespace Pattern

variable {vocabulary : Vocabulary} {form : List Slot} {tokens : List (List Char)}

/-- A slot of integers takes tokens of numbers that pass the check of bounds. -/
theorem exists_number {bounds : Bounds} {values : Set Int} (hchecks : bounds.Checks values)
    {token : List Char} (h : (Slot.integer values).Takes token) :
    ∃ n, SpellsNumber token n ∧ bounds.contains n = true := by
  obtain ⟨m, hm, hmem⟩ := h
  exact ⟨clampInt64 m, ⟨m, hm, rfl⟩, (hchecks m).2 hmem⟩

/-- A slot of integers takes tokens of the values to which these are converted. -/
theorem exists_converted {α : Type} {bounds : Bounds} {values : Set Int}
    (hchecks : bounds.Checks values) {convert? : Int → Option α} {Spells : List Char → α → Prop}
    (hconverts : Draft.Converts bounds convert? Spells) {token : List Char}
    (h : (Slot.integer values).Takes token) :
    ∃ n value, bounds.contains n = true ∧ convert? n = some value ∧ Spells token value := by
  obtain ⟨n, hn, hcontains⟩ := exists_number hchecks h
  obtain ⟨value, hvalue⟩ := hconverts.total n hcontains
  exact ⟨n, value, hcontains, hvalue, hconverts.spells n value hvalue token hn⟩

/-- Tokens that slots of strings take are the spellings of strings. -/
theorem exists_strings {values : Set String} {n : Nat}
    (h : List.Forall₂ Slot.Takes (List.replicate n (.string values)) tokens) :
    ∃ strings : List String, List.Forall₂ SpellsString tokens strings ∧ strings.length = n ∧
      ∀ value ∈ strings, value ∈ values := by
  induction n generalizing tokens with
  | zero =>
    cases h
    exact ⟨[], .nil, rfl, nofun⟩
  | succ n ih =>
    rw [List.replicate_succ] at h
    cases h with
    | cons htakes htokens =>
      obtain ⟨value, hspells, hmem⟩ := htakes
      obtain ⟨strings, hstrings, hlength, hall⟩ := ih htokens
      exact ⟨value :: strings, .cons hspells hstrings, by rw [List.length_cons, hlength],
        List.forall_mem_cons.2 ⟨hmem, hall⟩⟩

/-- What is laid out as a number spells one within its bounds. -/
theorem exists_spells_measure {bounds : Bounds} {values : Set Int} (hchecks : bounds.Checks values)
    (hform : form ∈ (Shape.measure values).forms) (h : List.Forall₂ Slot.Takes form tokens) :
    ∃ a, (Pattern.number bounds).Spells vocabulary tokens a := by
  obtain rfl : form = [.integer values] := hform
  rcases h with _ | ⟨htakes, _ | _⟩
  obtain ⟨n, hspells, hcontains⟩ := exists_number hchecks htakes
  exact ⟨_, .number hspells hcontains⟩

/-- What is laid out as a truth value spells one. -/
theorem exists_spells_truth (hform : form ∈ Shape.truth.forms)
    (h : List.Forall₂ Slot.Takes form tokens) :
    ∃ a, Pattern.boolean.Spells vocabulary tokens a := by
  obtain rfl : form = [.boolean] := hform
  rcases h with _ | ⟨⟨b, hspells⟩, _ | _⟩
  exact ⟨_, .boolean hspells⟩

/-- What is laid out as a list of names spells names that are accepted. -/
theorem exists_spells_listing {lexicon : Lexicon} {names : Set String}
    (hnames : ∀ name ∈ names, lexicon.accepts vocabulary name = true)
    (hform : form ∈ (Shape.listing names).forms) (h : List.Forall₂ Slot.Takes form tokens) :
    ∃ a, (Pattern.names lexicon).Spells vocabulary tokens a := by
  obtain ⟨n, rfl⟩ := hform
  obtain ⟨values, hspells, hlength, hall⟩ := exists_strings h
  exact ⟨_, .names hspells (List.ne_nil_of_length_eq_add_one hlength)
    fun value hvalue => hnames value (hall value hvalue)⟩

/-- What is laid out as a colour spells one, with or without its fourth channel. -/
theorem exists_spells_color (hform : form ∈ Shape.color.forms)
    (h : List.Forall₂ Slot.Takes form tokens) :
    ∃ a, Pattern.color.Spells vocabulary tokens a := by
  have hchannel {token : List Char} (htakes : (Slot.integer (Set.Icc 0 255)).Takes token) :
      ∃ byte, SpellsChannel token byte := by
    obtain ⟨-, byte, -, -, hspells⟩ :=
      exists_converted Draft.checks_channel Draft.converts_channel htakes
    exact ⟨byte, hspells⟩
  rcases hform with rfl | rfl
  · rcases h with _ | ⟨hred, _ | ⟨hgreen, _ | ⟨hblue, _ | _⟩⟩⟩
    obtain ⟨red, hred⟩ := hchannel hred
    obtain ⟨green, hgreen⟩ := hchannel hgreen
    obtain ⟨blue, hblue⟩ := hchannel hblue
    have hopaque : List.Forall₂ SpellsChannel [] (none : Option UInt8).toList := .nil
    exact ⟨_, .color hred hgreen hblue hopaque⟩
  · rcases h with _ | ⟨hred, _ | ⟨hgreen, _ | ⟨hblue, _ | ⟨halpha, _ | _⟩⟩⟩⟩
    obtain ⟨red, hred⟩ := hchannel hred
    obtain ⟨green, hgreen⟩ := hchannel hgreen
    obtain ⟨blue, hblue⟩ := hchannel hblue
    obtain ⟨alpha, halpha⟩ := hchannel halpha
    have hopacity : List.Forall₂ SpellsChannel [_] (some alpha).toList := .cons halpha .nil
    exact ⟨_, .color hred hgreen hblue hopacity⟩

/-- What is laid out as an alert sound spells one, with or without its volume. -/
theorem exists_spells_alert (hform : form ∈ (Shape.alert vocabulary).forms)
    (h : List.Forall₂ Slot.Takes form tokens) :
    ∃ a, Pattern.sound.Spells vocabulary tokens a := by
  have hsound {token : List Char} (htakes : (Slot.sound vocabulary).Takes token) :
      ∃ id, vocabulary.SpellsSound token id := by
    -- Numbers come first: a name in digits is not a name here.
    rcases htakes with hnumber | ⟨hnoNumber, name, hspells, hmem⟩
    · have hchecks : Bounds.soundNumber.Checks (Set.Icc 1 16) :=
        Bounds.checks_between (by decide) (by decide)
      obtain ⟨n, hn, hcontains⟩ := exists_number hchecks hnumber
      obtain ⟨id, hid⟩ := Draft.converts_soundNumber.total n hcontains
      obtain ⟨byte, hbyte, rfl⟩ := Option.map_eq_some_iff.1 hid
      rw [← Draft.toNat_of_toByte? hbyte] at hn hcontains
      exact ⟨_, .numbered hn hcontains⟩
    · exact ⟨_, .named hnoNumber hspells (List.elem_iff.2 hmem)⟩
  rcases hform with rfl | rfl
  · rcases h with _ | ⟨hid, _ | _⟩
    obtain ⟨id, hid⟩ := hsound hid
    have hdefault : List.Forall₂ SpellsVolume [] (none : Option UInt16).toList := .nil
    exact ⟨_, .sound hid hdefault nofun⟩
  · rcases h with _ | ⟨hid, _ | ⟨hvolume, _ | _⟩⟩
    obtain ⟨id, hid⟩ := hsound hid
    have hchecks : Bounds.volume.Checks (Set.Icc 0 300) :=
      Bounds.checks_between (by decide) (by decide)
    obtain ⟨n, volume, hcontains, hconvert, hspells⟩ :=
      exists_converted hchecks Draft.converts_volume hvolume
    rw [← Draft.toNat_of_toWord16? hconvert] at hcontains
    have hgiven : List.Forall₂ SpellsVolume [_] (some volume).toList := .cons hspells .nil
    refine ⟨_, .sound hid hgiven ?_⟩
    rintro _ ⟨⟩
    exact hcontains

/-- Tokens that the slots of a rule take spell an argument. -/
theorem exists_spells {name : RuleName} (hform : form ∈ (name.shape vocabulary).forms)
    (h : List.Forall₂ Slot.Takes form tokens) :
    ∃ a, name.pattern.Spells vocabulary tokens a := by
  cases name with
  | condition condition =>
    cases condition with
    | itemLevel | dropLevel | quality | sockets | height | width =>
      exact exists_spells_measure (Bounds.checks_between (by decide) (by decide)) hform h
    | linkedSockets =>
      -- The only bounds that list their values.
      refine exists_spells_measure (fun n => ?_) hform h
      rw [Bounds.linkedSockets, Bounds.checks_oneOf (by decide) n]
      simp
    | socketGroup =>
      obtain rfl : form = [.string {text | IsSocketGroup text}] := hform
      rcases h with _ | ⟨⟨group, hspells, hgroup⟩, _ | _⟩
      exact ⟨_, .socketGroup hspells hgroup⟩
    | rarity =>
      obtain rfl : form = [.string {"Normal", "Magic", "Rare", "Unique"}] := hform
      rcases h with _ | ⟨⟨text, hspells, hmem⟩, _ | _⟩
      obtain ⟨r, hr⟩ := Draft.mem_rarities_iff.1 hmem
      obtain rfl := Draft.ofName?_rarity_eq_some_iff.1 hr
      exact ⟨_, .rarity hspells⟩
    | itemClass =>
      refine exists_spells_listing (fun name hname => ?_) hform h
      simpa [Lexicon.accepts, Vocabulary.isClass] using hname
    | baseType =>
      refine exists_spells_listing (fun name hname => ?_) hform h
      simpa [Lexicon.accepts, Vocabulary.isBase] using hname
    | identified | corrupted | elderItem | shaperItem | shapedMap | elderMap =>
      exact exists_spells_truth hform h
  | action action =>
    cases action with
    | setBorderColor | setTextColor | setBackgroundColor => exact exists_spells_color hform h
    | playAlertSound | playAlertSoundPositional => exact exists_spells_alert hform h
    | setFontSize =>
      obtain rfl : form = [.integer (Set.Icc 18 45)] := hform
      rcases h with _ | ⟨htakes, _ | _⟩
      have hchecks : Bounds.fontSize.Checks (Set.Icc 18 45) :=
        Bounds.checks_between (by decide) (by decide)
      obtain ⟨n, hspells, hcontains⟩ := exists_number hchecks htakes
      exact ⟨_, .fontSize hspells hcontains⟩
    | disableDropSound =>
      obtain rfl : form = [] := hform
      cases h
      exact ⟨_, .flag⟩
    | customAlertSound =>
      obtain rfl : form = [.string {path | ∃ c ∈ path.toList, isBlank c = false}] := hform
      rcases h with _ | ⟨⟨path, hspells, hvisible⟩, _ | _⟩
      exact ⟨_, .soundFile hspells hvisible⟩

end Pattern

/-- Behind the keyword of a rule, what the grammar accepts says something. -/
theorem RuleName.exists_said {name : RuleName} {vocabulary : Vocabulary} {cs : List Char}
    (h : (name.shape vocabulary).Accepts cs) :
    ∃ operator a comment, name.Says vocabulary cs operator a comment := by
  obtain ⟨rest, hoperated, form, hform, hlaid⟩ := h
  obtain ⟨tokens, tail, htakes, hlined, htail⟩ := hlaid.exists_lined
  obtain ⟨a, hspells⟩ := Pattern.exists_spells hform htakes
  cases hoperated with
  | absent => exact ⟨none, a, _, cs, tokens, tail, .absent, hspells, hlined, htail, rfl⟩
  | @present op rest hop hstarts hstops =>
    have hheads : name.Heads cs (some op) rest :=
      .present (mem_operators_iff.1 hop) hstarts hstops
    exact ⟨some op, a, _, rest, tokens, tail, hheads, hspells, hlined, htail, rfl⟩

end ItemFilter
