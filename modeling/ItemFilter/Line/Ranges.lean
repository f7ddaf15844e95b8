import ItemFilter.Line

/-!
# The ranges of a line

A line holds ranges in many places: its own, those of its tokens and those of its diagnostics.
`Line.mapRanges` changes all of them in the same way and nothing else. Moving a line to another row
is such a change, which is how the lines below an edit follow it without being read again.
-/

namespace ItemFilter

/-- The greatest row that is kept; rows are 64-bit words. -/
def maxRow : Nat := 0xFFFFFFFFFFFFFFFF

/-- Moves a row by a signed distance, but not above the first or below the greatest row. -/
def shiftRow (delta : Int) (row : Nat) : Nat := min ((row : Int) + delta).toNat maxRow

namespace Range

/-- Moves both ends of a range by a number of rows. -/
def shiftRows (delta : Int) (r : Range) : Range :=
  ⟨⟨shiftRow delta r.start.row, r.start.column⟩, ⟨shiftRow delta r.stop.row, r.stop.column⟩⟩

end Range

namespace Token

/-- Changes the range of a token. -/
def mapRange {α : Type} (f : Range → Range) (t : Token α) : Token α := { t with range := f t.range }

end Token

namespace Diagnostic

/-- Changes the range of a diagnostic. -/
def mapRange (f : Range → Range) (d : Diagnostic) : Diagnostic := { d with range := f d.range }

end Diagnostic

namespace Messages

/-- Changes the ranges of all diagnostics. -/
def mapRanges (f : Range → Range) (m : Messages) : Messages :=
  ⟨m.errors.map (·.mapRange f), m.warnings.map (·.mapRange f), m.info.map (·.mapRange f)⟩

end Messages

namespace Color

/-- Changes the ranges of all channels. -/
def mapRanges (f : Range → Range) (c : Color) : Color :=
  ⟨c.red.mapRange f, c.green.mapRange f, c.blue.mapRange f, c.alpha.map (·.mapRange f)⟩

end Color

namespace AlertSound

/-- Changes the ranges of the sound and its volume. -/
def mapRanges (f : Range → Range) (s : AlertSound) : AlertSound :=
  ⟨s.id.mapRange f, s.volume.map (·.mapRange f)⟩

end AlertSound

namespace Argument

/-- Changes the ranges of all tokens of an argument. -/
def mapRanges (f : Range → Range) : Argument → Argument
  | number token => number (token.map (·.mapRange f))
  | rarity token => rarity (token.map (·.mapRange f))
  | socketGroup token => socketGroup (token.map (·.mapRange f))
  | boolean token => boolean (token.map (·.mapRange f))
  | names tokens => names (tokens.map (·.mapRange f))
  | color c => color (c.map (·.mapRanges f))
  | sound s => sound (s.map (·.mapRanges f))
  | fontSize token => fontSize (token.map (·.mapRange f))
  | soundFile token => soundFile (token.map (·.mapRange f))
  | flag => flag

/-- The ranges of the tokens of an argument, in order. -/
def ranges : Argument → List Range
  | number token => (token.map Token.range).toList
  | rarity token => (token.map Token.range).toList
  | socketGroup token => (token.map Token.range).toList
  | boolean token => (token.map Token.range).toList
  | names tokens => tokens.map Token.range
  | color none => []
  | color (some c) =>
    [c.red.range, c.green.range, c.blue.range] ++ (c.alpha.map Token.range).toList
  | sound none => []
  | sound (some s) => s.id.range :: (s.volume.map Token.range).toList
  | fontSize token => (token.map Token.range).toList
  | soundFile token => (token.map Token.range).toList
  | flag => []

end Argument

namespace LineKind

/-- Changes the ranges of all tokens of a line. -/
def mapRanges (f : Range → Range) : LineKind → LineKind
  | empty => empty
  | comment text => comment (text.mapRange f)
  | block header => block ⟨header.keyword.mapRange f, header.comment.map (·.mapRange f)⟩
  | rule r =>
    rule ⟨r.name.mapRange f, r.operator.map (·.mapRange f), r.argument.mapRanges f,
      r.comment.map (·.mapRange f)⟩
  | unknown word => unknown (word.map (·.mapRange f))

/-- The ranges of the tokens of a line. Those of a rule come in the order operator, comment, name,
argument. -/
def ranges : LineKind → List Range
  | empty => []
  | comment text => [text.range]
  | block header => header.keyword.range :: (header.comment.map Token.range).toList
  | rule r =>
    (r.operator.map Token.range).toList ++ (r.comment.map Token.range).toList ++
      r.name.range :: r.argument.ranges
  | unknown word => (word.map Token.range).toList

end LineKind

namespace Line

/-- Changes every range of a line. -/
def mapRanges (f : Range → Range) (line : Line) : Line :=
  ⟨f line.range, line.invalid, line.messages.mapRanges f, line.kind.mapRanges f⟩

/-- Moves a line by a number of rows. -/
def shiftRows (delta : Int) (line : Line) : Line := line.mapRanges (Range.shiftRows delta)

end Line

end ItemFilter
