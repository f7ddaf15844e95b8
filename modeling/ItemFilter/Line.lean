import ItemFilter.Diagnostic
import ItemFilter.Keyword
import ItemFilter.Lexeme

/-!
# Lines

What a row of a filter turned out to be, with every part at its place in the text. A line exists for
every row, whatever the row holds; what is wrong with the row is in the line's messages.
-/

namespace ItemFilter

/-- A colour of an item label. -/
structure Color where
  red : Token UInt8
  green : Token UInt8
  blue : Token UInt8
  /-- The opacity; a colour without it is opaque. -/
  alpha : Option (Token UInt8)
deriving DecidableEq, Repr

namespace Color

/-- The four channels of a colour, where a missing opacity counts as full. -/
def rgba (c : Color) : List UInt8 :=
  [c.red.value, c.green.value, c.blue.value, (c.alpha.map Token.value).getD 255]

end Color

/-- Which alert sound to play. -/
inductive SoundId where
  | named (name : String)
  | numbered (number : UInt8)
deriving DecidableEq, Repr

/-- An alert sound with its volume. -/
structure AlertSound where
  id : Token SoundId
  volume : Option (Token UInt16)
deriving DecidableEq, Repr

/-- The argument of a rule. A missing token stands for an argument that is absent or cannot be
used. -/
inductive Argument where
  | number (token : Option (Token Int))
  | rarity (token : Option (Token Rarity))
  /-- The socket colours in capital letters. -/
  | socketGroup (token : Option (Token String))
  | boolean (token : Option (Token Bool))
  /-- The accepted names; rejected ones are reported and left out. -/
  | names (tokens : List (Token String))
  | color (color : Option Color)
  | sound (sound : Option AlertSound)
  | fontSize (token : Option (Token Int))
  | soundFile (token : Option (Token String))
  /-- The rule takes no argument. -/
  | flag
deriving DecidableEq, Repr

/-- A block header. -/
structure Header where
  keyword : Token Visibility
  comment : Option (Token String)
deriving DecidableEq, Repr

/-- A condition or an action. -/
structure Rule where
  name : Token RuleName
  operator : Option (Token Operator)
  argument : Argument
  comment : Option (Token String)
deriving DecidableEq, Repr

/-- What a row is. -/
inductive LineKind where
  | empty
  | comment (text : Token String)
  | block (header : Header)
  | rule (rule : Rule)
  /-- The row starts with no keyword, or with no word at all. -/
  | unknown (word : Option (Token String))
deriving DecidableEq, Repr

/-- One row of a filter, read. -/
structure Line where
  /-- The range of the whole row. -/
  range : Range
  /-- Whether the row has an error. -/
  invalid : Bool
  messages : Messages
  kind : LineKind
deriving DecidableEq, Repr

namespace Line

/-- The line of a row; it is invalid when there is an error. -/
def make (range : Range) (kind : LineKind) (messages : Messages) : Line :=
  ⟨range, messages.hasErrors, messages, kind⟩

/-- Whether the row is blank. -/
def isEmpty (line : Line) : Bool :=
  match line.kind with
  | .empty => true
  | _ => false

/-- The block header, if the row is one. -/
def header? (line : Line) : Option Header :=
  match line.kind with
  | .block header => some header
  | _ => none

/-- The rule, if the row is one. -/
def rule? (line : Line) : Option Rule :=
  match line.kind with
  | .rule rule => some rule
  | _ => none

/-- The word with which the row starts, if it starts with a word and is no comment. -/
def keywordText? (line : Line) : Option String :=
  match line.kind with
  | .block header => some header.keyword.value.name
  | .rule rule => some rule.name.value.name
  | .unknown word => word.map Token.value
  | .empty | .comment _ => none

end Line

end ItemFilter
