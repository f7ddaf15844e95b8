import ItemFilter.Bounds
import ItemFilter.Diagnostic
import ItemFilter.Keyword
import ItemFilter.Lexeme
import ItemFilter.Vocabulary

/-!
# Problems

What can be wrong with a row, as causes. The severity, the wording and the proposed solution of each
cause are given here and nowhere else; a diagnostic is a problem at a place in a file.
-/

namespace ItemFilter

/-- Something that is wrong with a row. -/
inductive Problem where
  /-- A rule that compares for equality only has another operator. -/
  | invalidOperator (keyword : String) (operator : Operator)
  /-- A rule without operator has one. -/
  | operatorNotPermitted (keyword : String) (operator : Operator)
  /-- A required lexeme is not there. -/
  | expected (kind : Lexeme.Kind)
  /-- Neither the name nor the number of a sound is there. -/
  | expectedSound
  /-- A number is not among the accepted ones. -/
  | outOfBounds (keyword : String) (bounds : Bounds)
  /-- A text is not the name of a rarity. -/
  | unknownRarity (text : String)
  /-- A text is not a group of socket colours. -/
  | invalidSocketGroup
  /-- A listed name is not in the vocabulary. -/
  | notListed (keyword name : String) (lexicon : Lexicon)
  /-- The name of a sound is not in the vocabulary. -/
  | unknownSound (keyword name : String)
  /-- The path of a sound file is blank. -/
  | blankSoundFile
  /-- Text follows the arguments of a rule. -/
  | trailingText
  /-- Text follows a block header. -/
  | ignoredText
  /-- A row does not start with a word but with a lexeme of another kind, if with any. -/
  | unreadableKeyword (found : Option Lexeme.Kind)
  /-- A row starts with a word that is not a keyword. -/
  | unknownKeyword (word : String)
deriving DecidableEq, Repr

namespace Problem

/-- How grave a problem is: what the game ignores is a warning. -/
def severity : Problem → Severity
  | ignoredText | unknownKeyword _ => .warning
  | _ => .error

/-- The short text of a problem. -/
def excerpt : Problem → String
  | invalidOperator keyword _ => s!"Invalid operator for rule {keyword}."
  | operatorNotPermitted keyword _ => s!"Operators are not permitted for rule {keyword}."
  | expected kind => s!"Invalid format. Expected {kind.describe}."
  | expectedSound => "Invalid format. Expected a sound name or number."
  | outOfBounds keyword bounds =>
    s!"Invalid value for rule {keyword}. Expected {bounds.describe}."
  | unknownRarity _ =>
    "Invalid value for rule Rarity. Expected one of " ++
      ", ".intercalate (Rarity.all.map Rarity.name) ++ "."
  | invalidSocketGroup =>
    "Invalid value for rule SocketGroup. Expected 1 to 6 of the letters R, G, B and W."
  | notListed keyword name lexicon =>
    s!"Invalid value for rule {keyword}. \"{name}\" is not a known {lexicon.noun}."
  | unknownSound keyword name =>
    s!"Invalid value for rule {keyword}. \"{name}\" is not a known sound."
  | blankSoundFile => "Invalid value for rule CustomAlertSound. Expected a sound file path."
  | trailingText => "Unexpected trailing text. The rule is already complete."
  | ignoredText => "Trailing text is ignored by the game."
  | unreadableKeyword _ => "Unreadable keyword."
  | unknownKeyword word => s!"Unknown keyword {word}."

/-- What a row starts with that does not start with a keyword. -/
def foundText : Option Lexeme.Kind → String
  | none | some .word => "unreadable text"
  | some kind => kind.describe

/-- The longer explanation of a problem. -/
def description : Problem → Option String
  | invalidOperator _ _ =>
    some "Only `=` can be used with this rule; it may also be omitted."
  | notListed _ _ _ => some "Add it to the whitelist in the settings if the game accepts it."
  | unreadableKeyword found =>
    some ("Expected a keyword at the start of the line, found " ++ foundText found ++ ".")
  | _ => none

/-- The proposed solution of a problem. -/
def solution : Problem → Option Solution
  | invalidOperator _ operator => some ⟨some operator.symbol, Operator.equal.symbol⟩
  | operatorNotPermitted _ operator => some ⟨some operator.symbol, ""⟩
  | unknownRarity text => (Rarity.closest? text).map fun r => ⟨some text, r.name⟩
  | _ => none

/-- The diagnostic that reports a problem at a place in a file. -/
def diagnostic (problem : Problem) (file : Option String) (range : Range) : Diagnostic :=
  ⟨problem.excerpt, problem.description, file, none, range, problem.solution⟩

end Problem

namespace Messages

/-- Adds the report of a problem. -/
def report (m : Messages) (file : Option String) (problem : Problem) (range : Range) : Messages :=
  m.push problem.severity (problem.diagnostic file range)

end Messages

end ItemFilter
