import ItemFilter.Line
import ItemFilter.Rule.Draft

/-!
# The arguments of rules

One function for each shape of rule. It is given a draft whose cursor stands behind the keyword,
reads the operator and the arguments that the shape has, and answers the argument with the messages
that came up.
-/

namespace ItemFilter

/-- The byte that an integer is, if it is one. -/
def toByte? (n : Int) : Option UInt8 :=
  if 0 ≤ n ∧ n < 256 then some (UInt8.ofNat n.toNat) else none

/-- The 16-bit word that an integer is, if it is one. -/
def toWord16? (n : Int) : Option UInt16 :=
  if 0 ≤ n ∧ n < 65536 then some (UInt16.ofNat n.toNat) else none

namespace Draft

/-- A block header. The game ignores text that follows it, so such text is only a warning. -/
def header (d : Draft) : Outcome Unit := d.close .ignoredText ()

/-- A number within bounds, behind any operator or none. A number out of bounds is reported and
kept. -/
def numeric (d : Draft) (bounds : Bounds) : Outcome (Option (Token Int)) :=
  match d.anyOperator.require .number Lexeme.number? with
  | (none, d) => d.abort none
  | (some number, d) => (d.checkBounds number bounds).finish (some number)

/-- A font size, without operator. A size out of bounds is reported and kept. -/
def fontSize (d : Draft) : Outcome (Option (Token Int)) :=
  match d.noOperator.require .number Lexeme.number? with
  | (none, d) => d.abort none
  | (some number, d) => (d.checkBounds number Bounds.fontSize).finish (some number)

/-- The name of a rarity, behind any operator or none. -/
def rarity (d : Draft) : Outcome (Option (Token Rarity)) :=
  match d.anyOperator.require .string Lexeme.string? with
  | (none, d) => d.abort none
  | (some text, d) =>
    match Rarity.ofName? text.value with
    | some rarity => d.finish (some ⟨rarity, text.range⟩)
    | none => (d.report (.unknownRarity text.value) text.range).finish none

/-- Whether a character names a socket colour, in either case. -/
def isSocketColor (c : Char) : Bool := "RGBW".toList.elem c.toUpper

/-- Whether a text is a group of one to six socket colours. -/
def isSocketGroup (cs : List Char) : Bool :=
  !cs.isEmpty && cs.length ≤ 6 && cs.all isSocketColor

/-- A group of socket colours, stored in capital letters. -/
def socketGroup (d : Draft) : Outcome (Option (Token String)) :=
  match d.equalityOperator.require .string Lexeme.string? with
  | (none, d) => d.abort none
  | (some text, d) =>
    let colors := text.value.toList
    if isSocketGroup colors then
      d.finish (some ⟨String.ofList (colors.map Char.toUpper), text.range⟩)
    else (d.report .invalidSocketGroup text.range).finish none

/-- A truth value. -/
def boolean (d : Draft) : Outcome (Option (Token Bool)) :=
  match d.equalityOperator.require .boolean Lexeme.boolean? with
  | (none, d) => d.abort none
  | (some value, d) => d.finish (some value)

/-- Reads names as long as there are any. Counts how many were seen, and collects those that are
accepted; every other one is reported on itself. -/
def readNames (d : Draft) (lexicon : Lexicon) (vocabulary : Vocabulary) (seen : Nat)
    (accepted : List (Token String)) : Nat × List (Token String) × Draft :=
  match _h : d.cursor.next Lexeme.string? with
  | none => (seen, accepted, d)
  | some (token, cursor) =>
    let d' := { d with cursor }
    if lexicon.accepts vocabulary token.value then
      d'.readNames lexicon vocabulary (seen + 1) (accepted ++ [token])
    else
      (d'.report (.notListed d.keyword token.value lexicon) token.range).readNames lexicon
        vocabulary (seen + 1) accepted
termination_by d.cursor.remaining.length
decreasing_by all_goals exact Cursor.length_remaining_lt Cursor.string?_ne_nil _h

/-- One or more names of a vocabulary. Every rejected name is reported and left out. That there is
no name at all is reported only if nothing else is. -/
def names (d : Draft) (lexicon : Lexicon) (vocabulary : Vocabulary) :
    Outcome (List (Token String)) :=
  let (seen, accepted, d) := d.equalityOperator.readNames lexicon vocabulary 0 []
  if seen == 0 && d.messages.isEmpty then (d.missing (.expected .string)).abort accepted
  else d.finish accepted

/-- A required colour channel: nothing if no number comes next, else the channel if it is within
bounds. -/
def channel (d : Draft) : Option (Option (Token UInt8)) × Draft :=
  match d.require .number Lexeme.number? with
  | (none, d) => (none, d)
  | (some number, d) =>
    let (channel, d) := d.bounded number Bounds.channel toByte?
    (some channel, d)

/-- An optional number within bounds: nothing if no number comes next, else the converted number if
it is within bounds. -/
def optional {α : Type} (d : Draft) (bounds : Bounds) (convert? : Int → Option α) :
    Option (Option (Token α)) × Draft :=
  match d.take Lexeme.number? with
  | (none, d) => (none, d)
  | (some number, d) =>
    let (value, d) := d.bounded number bounds convert?
    (some value, d)

/-- The colour made of its channels, if all that are there can be used. -/
def colorOf (red green blue : Option (Token UInt8)) (alpha : Option (Option (Token UInt8))) :
    Option Color :=
  match red, green, blue, alpha with
  | some red, some green, some blue, none => some ⟨red, green, blue, none⟩
  | some red, some green, some blue, some (some alpha) => some ⟨red, green, blue, some alpha⟩
  | _, _, _, _ => none

/-- A colour of three or four channels. Every channel out of bounds is reported; a missing one ends
the rule. -/
def color (d : Draft) : Outcome (Option Color) :=
  match d.equalityOperator.channel with
  | (none, d) => d.abort none
  | (some red, d) =>
    match d.channel with
    | (none, d) => d.abort none
    | (some green, d) =>
      match d.channel with
      | (none, d) => d.abort none
      | (some blue, d) =>
        let (alpha, d) := d.optional Bounds.channel toByte?
        d.finish (colorOf red green blue alpha)

/-- The number or the name of a sound: nothing if neither comes next, else the sound if it is
known. -/
def soundId (d : Draft) (vocabulary : Vocabulary) : Option (Option (Token SoundId)) × Draft :=
  match d.take Lexeme.number? with
  | (some number, d) =>
    let (id, d) := d.bounded number Bounds.soundNumber fun n => (toByte? n).map .numbered
    (some id, d)
  | (none, d) =>
    match d.take Lexeme.string? with
    | (some name, d) =>
      if vocabulary.isSound name.value then (some (some (name.map .named)), d)
      else (some none, d.report (.unknownSound d.keyword name.value) name.range)
    | (none, d) => (none, d.missing .expectedSound)

/-- The alert sound made of its parts, if all that are there can be used. -/
def alertSoundOf (id : Option (Token SoundId)) (volume : Option (Option (Token UInt16))) :
    Option AlertSound :=
  match id, volume with
  | some id, none => some ⟨id, none⟩
  | some id, some (some volume) => some ⟨id, some volume⟩
  | _, _ => none

/-- An alert sound with an optional volume. -/
def alertSound (d : Draft) (vocabulary : Vocabulary) : Outcome (Option AlertSound) :=
  match d.equalityOperator.soundId vocabulary with
  | (none, d) => d.abort none
  | (some id, d) =>
    let (volume, d) := d.optional Bounds.volume toWord16?
    d.finish (alertSoundOf id volume)

/-- The path of a sound file, which may not be blank. -/
def soundFile (d : Draft) : Outcome (Option (Token String)) :=
  match d.equalityOperator.require .string Lexeme.string? with
  | (none, d) => d.abort none
  | (some path, d) =>
    if (Text.trim path.value.toList).isEmpty then
      (d.report .blankSoundFile path.range).finish none
    else d.finish (some path)

/-- A rule without operator and arguments. -/
def flag (d : Draft) : Outcome Unit := d.noOperator.finish ()

/-- The argument of a condition. -/
def condition (d : Draft) (vocabulary : Vocabulary) : Condition → Outcome Argument
  | .itemLevel | .dropLevel => (d.numeric Bounds.level).map .number
  | .quality => (d.numeric Bounds.quality).map .number
  | .sockets => (d.numeric Bounds.sockets).map .number
  | .linkedSockets => (d.numeric Bounds.linkedSockets).map .number
  | .height => (d.numeric Bounds.height).map .number
  | .width => (d.numeric Bounds.width).map .number
  | .socketGroup => d.socketGroup.map .socketGroup
  | .rarity => d.rarity.map .rarity
  | .itemClass => (d.names .classes vocabulary).map .names
  | .baseType => (d.names .bases vocabulary).map .names
  | .identified | .corrupted | .elderItem | .shaperItem | .shapedMap | .elderMap =>
    d.boolean.map .boolean

/-- The argument of an action. -/
def action (d : Draft) (vocabulary : Vocabulary) : Action → Outcome Argument
  | .setBorderColor | .setTextColor | .setBackgroundColor => d.color.map .color
  | .playAlertSound | .playAlertSoundPositional => (d.alertSound vocabulary).map .sound
  | .setFontSize => d.fontSize.map .fontSize
  | .disableDropSound => d.flag.map fun _ => .flag
  | .customAlertSound => d.soundFile.map .soundFile

/-- The argument of a rule. -/
def argument (d : Draft) (vocabulary : Vocabulary) : RuleName → Outcome Argument
  | .condition condition => d.condition vocabulary condition
  | .action action => d.action vocabulary action

end Draft

end ItemFilter
