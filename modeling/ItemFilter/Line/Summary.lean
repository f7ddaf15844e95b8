import ItemFilter.Line

/-!
# Summaries of lines

A summary says in one line of text what a row is. An outline lists the summaries of all rows, each
followed by the row's diagnostics.
-/

namespace ItemFilter

/-- The text of a part that is missing. -/
def missingText : String := "?"

/-- A text in double quotes. -/
def quoted (text : String) : String := "\"" ++ text ++ "\""

namespace SoundId

/-- How a sound is written. -/
def text : SoundId → String
  | named name => name
  | numbered number => toString number.toNat

end SoundId

namespace Argument

/-- The text of one token, or the sign that it is missing. -/
def partText {α : Type} (text : α → String) (token : Option (Token α)) : String :=
  (token.map fun t => text t.value).getD missingText

/-- The parts of an argument as texts. -/
def parts : Argument → List String
  | number token => [partText toString token]
  | rarity token => [partText Rarity.name token]
  | socketGroup token => [partText id token]
  | boolean token => [partText (fun b => if b then "true" else "false") token]
  | names [] => [missingText]
  | names tokens => tokens.map fun t => quoted t.value
  | color none => [missingText]
  | color (some c) =>
    ([c.red, c.green, c.blue] ++ c.alpha.toList).map fun t => toString t.value.toNat
  | sound none => [missingText]
  | sound (some s) => s.id.value.text :: (s.volume.map fun t => toString t.value.toNat).toList
  | fontSize token => [partText toString token]
  | soundFile token => [partText quoted token]
  | flag => []

end Argument

namespace Visibility

/-- What a block header does, in small letters. -/
def summary : Visibility → String
  | shown => "show"
  | hidden => "hide"

end Visibility

namespace RuleName

/-- Whether a rule is a condition or an action. -/
def family : RuleName → String
  | condition _ => "filter"
  | action _ => "action"

end RuleName

namespace LineKind

/-- The parts of a line as texts. -/
def parts : LineKind → List String
  | empty => ["empty"]
  | comment text => ["comment", text.value]
  | block header => header.keyword.value.summary :: (header.comment.map Token.value).toList
  | rule r =>
    [r.name.value.family, r.name.value.name] ++
      (r.operator.map fun t => t.value.symbol).toList ++ r.argument.parts ++
      (r.comment.map Token.value).toList
  | unknown word => "unknown" :: (word.map Token.value).toList

end LineKind

namespace Line

/-- What a row is, without its diagnostics. -/
def summary (line : Line) : String :=
  " ".intercalate (line.kind.parts ++ if line.invalid then ["(invalid)"] else [])

/-- The text of one diagnostic below the summary of its row. -/
def remark (severity : Severity) (d : Diagnostic) : String :=
  s!"   {severity.name} {d.range.start.column}..{d.range.stop.column} {d.excerpt}"

/-- The entries of a row in an outline: its summary with its number, then its diagnostics. -/
def entries (line : Line) (row : Nat) : List String :=
  s!"{row}: {line.summary}" :: line.messages.toList.map fun (severity, d) => remark severity d

end Line

/-- The outline of a list of lines: the entries of every row, one below the other. -/
def outline (lines : List Line) : String :=
  "\n".intercalate (lines.zipIdx.flatMap fun (line, row) => line.entries row)

end ItemFilter
