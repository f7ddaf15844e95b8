import ItemFilter.Keyword
import ItemFilter.Proofs.Spelling
import ItemFilter.Vocabulary

/-!
# The grammar of rows

Which rows are right, as a grammar over characters (`Accepted`). A row is blank or a comment, or it
starts with a word. Behind a block header and behind a word that is no keyword anything may stand.
Behind the keyword of a rule there may be an operator that the rule permits; then come arguments,
one for each slot of a form of the rule, each followed by a blank or the end; and then nothing but
blanks and a comment. The operators and forms of every rule are tables (`Condition.shape`,
`Action.shape`).

A slot takes strings only, so that the argument at the start of a text is the same whatever slot it
is read for (`StartsWith.unique`). Hence whether arguments are laid out for slots can be seen one
argument at a time (`laid_cons_iff`), and an operator that stands in front of the arguments cannot
be overlooked (`Laid.stops_isComparison`).
-/

namespace ItemFilter

open Text Lexeme

/-! ## Layout -/

/-- Behind blanks, a text starts with a token, and a rest follows it. -/
def StartsWith (cs token rest : List Char) : Prop :=
  ∃ blanks, (∀ c ∈ blanks, isBlank c = true) ∧ cs = blanks ++ token ++ rest

/-- A text of blanks, behind which a comment may stand. -/
def Ignorable (cs : List Char) : Prop :=
  ∃ blanks tail, (∀ c ∈ blanks, isBlank c = true) ∧ cs = blanks ++ tail ∧
    (tail = [] ∨ tail.head? = some '#')

/-- A place for one argument of a rule: the tokens that may stand there, which are all strings. -/
structure Slot where
  Takes : List Char → Prop
  isString {token : List Char} : Takes token → IsString token

namespace Slot

/-- An integer among given ones. -/
def integer (values : Set Int) : Slot where
  Takes token := ∃ n, SpellsInteger token n ∧ n ∈ values
  isString := fun ⟨_, hspells, _⟩ => hspells.isString

/-- A string among given ones. -/
def string (values : Set String) : Slot where
  Takes token := ∃ value, SpellsString token value ∧ value ∈ values
  isString := fun ⟨value, hspells, _⟩ => ⟨value, hspells⟩

/-- A truth value. -/
def boolean : Slot where
  Takes token := ∃ b, SpellsBoolean token b
  isString := fun ⟨_, hspells⟩ => hspells.isString

/-- The number of a built-in sound or the name of a sound in the vocabulary. A token that spells an
integer is never a name. -/
def sound (vocabulary : Vocabulary) : Slot where
  Takes token := (integer (Set.Icc 1 16)).Takes token ∨
    (¬ ∃ n, SpellsInteger token n) ∧
      (string {name | name ∈ vocabulary.validSounds}).Takes token
  isString
    | .inl hnumber => (integer _).isString hnumber
    | .inr ⟨_, hname⟩ => (string _).isString hname

end Slot

/-- Arguments are laid out for slots: each behind blanks and followed by a blank or the end, and
nothing behind the last one but blanks and a comment. -/
inductive Laid : List Slot → List Char → Prop
  | nil {cs : List Char} : Ignorable cs → Laid [] cs
  | cons {slot : Slot} {slots : List Slot} {cs token rest : List Char} :
    StartsWith cs token rest → slot.Takes token → atBoundary rest = true → Laid slots rest →
      Laid (slot :: slots) cs

/-- An operator among given ones stands in front of a rest, or none does. -/
inductive Operated (operators : Set Operator) (cs : List Char) : List Char → Prop
  | absent : Operated operators cs cs
  | present {op : Operator} {rest : List Char} : op ∈ operators →
    StartsWith cs op.symbol.toList rest → Stops isComparison rest → Operated operators cs rest

/-! ## Rules -/

/-- What may follow the keyword of a rule. -/
structure Shape where
  /-- The operators that may stand in front of the arguments; none has to. -/
  operators : Set Operator
  /-- The slots of the arguments, of which the arguments fill one list. -/
  forms : Set (List Slot)

namespace Shape

/-- Arguments of one of the forms are laid out. -/
def Arranged (shape : Shape) (cs : List Char) : Prop := ∃ form ∈ shape.forms, Laid form cs

/-- A text is right behind the keyword: an operator or none, and the arguments. -/
def Accepts (shape : Shape) (cs : List Char) : Prop :=
  ∃ rest, Operated shape.operators cs rest ∧ shape.Arranged rest

/-- An integer behind any operator. -/
def measure (values : Set Int) : Shape := ⟨Set.univ, {[.integer values]}⟩

/-- A truth value behind at most the equality sign. -/
def truth : Shape := ⟨{.equal}, {[.boolean]}⟩

/-- One or more names of a vocabulary behind at most the equality sign. -/
def listing (names : Set String) : Shape :=
  ⟨{.equal}, {form | ∃ n, form = List.replicate (n + 1) (.string names)}⟩

/-- Three or four colour channels behind at most the equality sign. -/
def color : Shape :=
  let channel := Slot.integer (Set.Icc 0 255)
  ⟨{.equal}, {[channel, channel, channel], [channel, channel, channel, channel]}⟩

/-- A sound, and a volume or none, behind at most the equality sign. -/
def alert (vocabulary : Vocabulary) : Shape :=
  ⟨{.equal}, {[.sound vocabulary], [.sound vocabulary, .integer (Set.Icc 0 300)]}⟩

end Shape

/-- One to six of the four socket colours, in either case. -/
def IsSocketGroup (text : String) : Prop :=
  1 ≤ text.toList.length ∧ text.toList.length ≤ 6 ∧ ∀ c ∈ text.toList, c ∈ "RGBWrgbw".toList

/-- What may follow the keyword of a condition. -/
def Condition.shape (vocabulary : Vocabulary) : Condition → Shape
  | .itemLevel | .dropLevel => .measure (Set.Icc 0 200)
  | .quality => .measure (Set.Icc 0 100)
  | .sockets => .measure (Set.Icc 0 6)
  | .linkedSockets => .measure {0, 2, 3, 4, 5, 6}
  | .height => .measure (Set.Icc 1 4)
  | .width => .measure (Set.Icc 1 2)
  | .socketGroup => ⟨{.equal}, {[.string {text | IsSocketGroup text}]}⟩
  | .rarity => ⟨Set.univ, {[.string {"Normal", "Magic", "Rare", "Unique"}]}⟩
  | .itemClass =>
    .listing {name | name ∈ vocabulary.validClasses ∨ name ∈ vocabulary.classWhitelist}
  | .baseType => .listing {name | name ∈ vocabulary.validBases ∨ name ∈ vocabulary.baseWhitelist}
  | .identified | .corrupted | .elderItem | .shaperItem | .shapedMap | .elderMap => .truth

/-- What may follow the keyword of an action. -/
def Action.shape (vocabulary : Vocabulary) : Action → Shape
  | .setBorderColor | .setTextColor | .setBackgroundColor => .color
  | .playAlertSound | .playAlertSoundPositional => .alert vocabulary
  | .setFontSize => ⟨∅, {[.integer (Set.Icc 18 45)]}⟩
  | .disableDropSound => ⟨∅, {[]}⟩
  | .customAlertSound => ⟨{.equal}, {[.string {path | ∃ c ∈ path.toList, isBlank c = false}]}⟩

/-- What may follow the keyword of a rule. -/
def RuleName.shape (vocabulary : Vocabulary) : RuleName → Shape
  | .condition c => c.shape vocabulary
  | .action a => a.shape vocabulary

/-! ## Rows -/

/-- A row is right. -/
inductive Accepted (vocabulary : Vocabulary) (cs : List Char) : Prop
  /-- It is blank or a comment. -/
  | ignored : Ignorable cs → Accepted vocabulary cs
  /-- It starts with a block header. -/
  | header {rest : List Char} (visibility : Visibility) :
    StartsWith cs visibility.name.toList rest → atBoundary rest = true → Accepted vocabulary cs
  /-- It starts with a word that is no keyword. -/
  | skipped {token rest : List Char} {word : String} :
    SpellsWord token word → StartsWith cs token rest → atBoundary rest = true →
      (∀ visibility : Visibility, word ≠ visibility.name) →
      (∀ name : RuleName, word ≠ name.name) → Accepted vocabulary cs
  /-- It starts with the keyword of a rule, behind which all is as the rule has it. -/
  | rule {rest : List Char} (name : RuleName) :
    StartsWith cs name.name.toList rest → atBoundary rest = true →
      (name.shape vocabulary).Accepts rest → Accepted vocabulary cs

/-! ## What a text starts with -/

/-- A text starts with what is left of it without its leading blanks. -/
theorem StartsWith.of_trimStart {cs token rest : List Char} (h : trimStart cs = token ++ rest) :
    StartsWith cs token rest := by
  refine ⟨cs.takeWhile isBlank, fun c hc => List.mem_takeWhile_imp hc, ?_⟩
  rw [List.append_assoc, ← h]
  exact List.takeWhile_append_dropWhile.symm

/-- Without the blanks in front of it, a text starts with its token at once. -/
theorem StartsWith.trimStart_eq {cs token rest : List Char} (h : StartsWith cs token rest)
    (hvisible : IsVisible token) : trimStart cs = token ++ rest := by
  obtain ⟨blanks, hblanks, rfl⟩ := h
  obtain ⟨c, cs, rfl, hc⟩ := hvisible
  rw [List.append_assoc]
  exact dropWhile_append_of_stop hblanks (stops_cons.2 hc)

/-- A text can be ignored when nothing is left of it without its leading blanks, or a comment. -/
theorem ignorable_iff {cs : List Char} :
    Ignorable cs ↔ trimStart cs = [] ∨ (trimStart cs).head? = some '#' := by
  constructor
  · rintro ⟨blanks, tail, hblanks, rfl, htail⟩
    -- Neither the end nor a comment goes on with the blanks.
    have hstops : Stops isBlank tail := by
      intro c hc
      rcases htail with rfl | hhash
      · cases hc
      · obtain rfl : '#' = c := Option.some.inj (hhash.symm.trans hc)
        decide
    have htrim : trimStart (blanks ++ tail) = tail := dropWhile_append_of_stop hblanks hstops
    rwa [htrim]
  · intro h
    exact ⟨cs.takeWhile isBlank, trimStart cs, fun c hc => List.mem_takeWhile_imp hc,
      List.takeWhile_append_dropWhile.symm, h⟩

/-- A text starts with one string at most. -/
theorem StartsWith.unique {cs token token' rest rest' : List Char} (h : StartsWith cs token rest)
    (h' : StartsWith cs token' rest') (htoken : IsString token) (htoken' : IsString token')
    (hrest : atBoundary rest = true) (hrest' : atBoundary rest' = true) :
    token = token' ∧ rest = rest' := by
  have htext : token ++ rest = token' ++ rest' := by
    rw [← h.trimStart_eq htoken.isVisible, h'.trimStart_eq htoken'.isVisible]
  -- The string recogniser answers both tokens on the same text.
  obtain ⟨value, hvalue⟩ := htoken
  obtain ⟨value', hvalue'⟩ := htoken'
  have hread := recognises_string.complete hvalue hrest
  rw [htext, recognises_string.complete hvalue' hrest'] at hread
  obtain rfl : token' = token := congrArg Lexeme.text (Option.some.inj hread)
  exact ⟨rfl, List.append_cancel_left htext⟩

/-- No string stands in a text that can be ignored. -/
theorem Ignorable.not_startsWith {cs token rest : List Char} (h : Ignorable cs)
    (htoken : IsString token) : ¬ StartsWith cs token rest := by
  intro hstarts
  have htext := hstarts.trimStart_eq htoken.isVisible
  obtain ⟨c, tail, rfl, -, -, hhash⟩ := htoken.exists_cons
  rcases ignorable_iff.1 h with hnil | hhead
  · rw [hnil] at htext
    cases htext
  · rw [htext] at hhead
    exact hhash (Option.some.inj hhead)

/-! ## One argument at a time -/

/-- Nothing is laid out for no slots. -/
theorem laid_nil_iff {cs : List Char} : Laid [] cs ↔ Ignorable cs :=
  ⟨fun h => by cases h; assumption, .nil⟩

/-- Whether arguments are laid out is decided by the first one and what follows it. -/
theorem laid_cons_iff {slot : Slot} {slots : List Slot} {cs token rest : List Char}
    (hstarts : StartsWith cs token rest) (htoken : IsString token)
    (hrest : atBoundary rest = true) :
    Laid (slot :: slots) cs ↔ slot.Takes token ∧ Laid slots rest := by
  constructor
  · intro h
    cases h with
    | cons hstarts' htakes hrest' hlaid =>
      obtain ⟨rfl, rfl⟩ :=
        hstarts.unique hstarts' htoken (slot.isString htakes) hrest hrest'
      exact ⟨htakes, hlaid⟩
  · rintro ⟨htakes, hlaid⟩
    exact .cons hstarts htakes hrest hlaid

/-- No comparison sign stands in front of arguments that are laid out. -/
theorem Laid.stops_isComparison {slots : List Slot} {cs : List Char} (h : Laid slots cs) :
    Stops isComparison (trimStart cs) := by
  cases h with
  | nil hignorable =>
    rcases ignorable_iff.1 hignorable with hnil | hhash
    · rw [hnil]
      exact stops_nil
    · intro c hc
      obtain rfl : '#' = c := Option.some.inj (hhash.symm.trans hc)
      decide
  | @cons slot slots cs token rest hstarts htakes hrest hlaid =>
    have htoken := slot.isString htakes
    rw [hstarts.trimStart_eq htoken.isVisible]
    obtain ⟨c, tail, rfl, -, hcomparison, -⟩ := htoken.exists_cons
    exact stops_cons.2 hcomparison

/-! ## Operators in front of arguments -/

namespace Shape

variable {shape : Shape} {cs rest : List Char}

/-- Behind a keyword and an operator, the operator has to be permitted and the arguments laid
out. -/
theorem accepts_iff_of_operator {op : Operator} (hstarts : StartsWith cs op.symbol.toList rest)
    (hstops : Stops isComparison rest) :
    shape.Accepts cs ↔ op ∈ shape.operators ∧ shape.Arranged rest := by
  have htext := hstarts.trimStart_eq (isVisible_symbol op)
  constructor
  · rintro ⟨rest', hoperated, hforms⟩
    cases hoperated with
    | absent =>
      -- The operator would stand where the arguments start.
      obtain ⟨form, -, hlaid⟩ := hforms
      have hstops' := hlaid.stops_isComparison
      rw [htext] at hstops'
      obtain ⟨c, tail, hsymbol, -⟩ := isVisible_symbol op
      have hc := isComparison_of_mem_symbol op c (by rw [hsymbol]; exact List.mem_cons_self)
      rw [hsymbol, List.cons_append, stops_cons, hc] at hstops'
      cases hstops'
    | @present op' rest' hop' hstarts' hstops' =>
      -- The longest run of comparison signs is one operator.
      have htext' := hstarts'.trimStart_eq (isVisible_symbol op')
      have hread := recognises_operator.complete (show SpellsOperator _ op from rfl) hstops
      have hread' := recognises_operator.complete (show SpellsOperator _ op' from rfl) hstops'
      rw [← htext, htext', hread'] at hread
      obtain rfl : op' = op := congrArg Lexeme.value (Option.some.inj hread)
      obtain rfl : rest = rest' := List.append_cancel_left (htext.symm.trans htext')
      exact ⟨hop', hforms⟩
  · rintro ⟨hop, hforms⟩
    exact ⟨rest, .present hop hstarts hstops, hforms⟩

/-- Behind a keyword without operator, the arguments have to be laid out. -/
theorem accepts_iff_of_no_operator
    (h : ∀ op : Operator, ∀ rest, Stops isComparison rest →
      ¬ StartsWith cs op.symbol.toList rest) :
    shape.Accepts cs ↔ shape.Arranged cs := by
  constructor
  · rintro ⟨rest, hoperated, hforms⟩
    cases hoperated with
    | absent => exact hforms
    | present _ hstarts hstops => exact absurd hstarts (h _ _ hstops)
  · intro hforms
    exact ⟨cs, .absent, hforms⟩

/-- With one form only, the arguments are laid out for it. -/
theorem arranged_singleton_iff {operators : Set Operator} {form : List Slot} :
    Arranged ⟨operators, {form}⟩ cs ↔ Laid form cs := by
  simp [Arranged]

/-- With two forms, the arguments are laid out for one of them. -/
theorem arranged_pair_iff {operators : Set Operator} {form form' : List Slot} :
    Arranged ⟨operators, {form, form'}⟩ cs ↔ Laid form cs ∨ Laid form' cs := by
  simp [Arranged]

end Shape

/-! ## Keywords in front of a row -/

namespace Keyword

/-- How a keyword is spelled. -/
def name : Keyword → String
  | block v => v.name
  | rule n => n.name

/-- A keyword is found by its name. -/
theorem ofName?_eq_some_iff {text : String} {keyword : Keyword} :
    ofName? text = some keyword ↔ text = keyword.name := by
  have hvisibility {v : Visibility} : Visibility.ofName? text = some v ↔ text = v.name :=
    find?_name_eq_some_iff fun v => by cases v <;> decide
  have hcondition {c : Condition} : Condition.ofName? text = some c ↔ text = c.name :=
    find?_name_eq_some_iff fun c => by cases c <;> decide
  have haction {a : Action} : Action.ofName? text = some a ↔ text = a.name :=
    find?_name_eq_some_iff fun a => by cases a <;> decide
  constructor
  · intro h
    simp only [ofName?, RuleName.ofName?, Option.or_eq_some_iff, Option.map_eq_some_iff] at h
    rcases h with ⟨v, hv, rfl⟩ | ⟨-, _, ⟨c, hc, rfl⟩ | ⟨-, a, ha, rfl⟩, rfl⟩
    · exact hvisibility.1 hv
    · exact hcondition.1 hc
    · exact haction.1 ha
  · rintro rfl
    rcases keyword with v | c | a
    · cases v <;> decide
    · cases c <;> decide
    · cases a <;> decide

/-- Different keywords are spelled differently. -/
theorem name_injective {keyword keyword' : Keyword} (h : keyword.name = keyword'.name) :
    keyword = keyword' :=
  Option.some.inj ((ofName?_eq_some_iff.2 rfl).symm.trans (ofName?_eq_some_iff.2 h))

/-- A keyword is a word. -/
theorem spellsWord_name (keyword : Keyword) : SpellsWord keyword.name.toList keyword.name := by
  have hletters : keyword.name.toList ≠ [] ∧ keyword.name.toList.all isLetter = true := by
    rcases keyword with v | c | a
    · cases v <;> decide
    · cases c <;> decide
    · cases a <;> decide
  exact ⟨hletters.1, List.all_eq_true.1 hletters.2, String.ofList_toList.symm⟩

end Keyword

/-- A row that is right can be ignored or starts with a word. -/
theorem Accepted.ignorable_or_word {vocabulary : Vocabulary} {cs : List Char}
    (h : Accepted vocabulary cs) :
    Ignorable cs ∨ ∃ token rest word, SpellsWord token word ∧ StartsWith cs token rest ∧
      atBoundary rest = true := by
  cases h with
  | ignored hignorable => exact .inl hignorable
  | header visibility hstarts hrest =>
    exact .inr ⟨_, _, _, Keyword.spellsWord_name (.block visibility), hstarts, hrest⟩
  | skipped hspells hstarts hrest _ _ => exact .inr ⟨_, _, _, hspells, hstarts, hrest⟩
  | rule name hstarts hrest _ =>
    exact .inr ⟨_, _, _, Keyword.spellsWord_name (.rule name), hstarts, hrest⟩

/-- A row that starts with the keyword of a rule is right when all behind the keyword is as the rule
has it. -/
theorem accepted_iff_of_rule {vocabulary : Vocabulary} {cs rest : List Char} {name : RuleName}
    (hstarts : StartsWith cs name.name.toList rest) (hrest : atBoundary rest = true) :
    Accepted vocabulary cs ↔ (name.shape vocabulary).Accepts rest := by
  have hstring (keyword : Keyword) : IsString keyword.name.toList :=
    keyword.spellsWord_name.isBareString.isString
  constructor
  · -- A row starts with one word at most, and no other keyword is spelled like this one.
    intro h
    cases h with
    | ignored hignorable => exact absurd hstarts (hignorable.not_startsWith (hstring (.rule name)))
    | header visibility hstarts' hrest' =>
      obtain ⟨hname, -⟩ := hstarts.unique hstarts' (hstring (.rule name))
        (hstring (.block visibility)) hrest hrest'
      have hsame : Keyword.rule name = .block visibility :=
        Keyword.name_injective (String.toList_inj.1 hname)
      cases hsame
    | skipped hspells hstarts' hrest' _ hunknown =>
      obtain ⟨rfl, -⟩ := hstarts.unique hstarts' (hstring (.rule name))
        hspells.isBareString.isString hrest hrest'
      exact absurd (hspells.2.2.trans String.ofList_toList) (hunknown name)
    | rule name' hstarts' hrest' haccepts =>
      obtain ⟨hname, rfl⟩ := hstarts.unique hstarts' (hstring (.rule name))
        (hstring (.rule name')) hrest hrest'
      have hsame : Keyword.rule name = .rule name' :=
        Keyword.name_injective (String.toList_inj.1 hname)
      cases hsame
      exact haccepts
  · intro haccepts
    exact .rule name hstarts hrest haccepts

end ItemFilter
