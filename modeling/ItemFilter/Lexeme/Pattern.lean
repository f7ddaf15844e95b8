import ItemFilter.Lexeme
import ItemFilter.Text.Offset

/-!
# Token rules

The table of the tokens of a row. Each rule is a pattern that is anchored at the start of a text,
and a conversion of what it captures into a value. The captured part is the token; behind it the
pattern looks at what follows, which is not taken.

A pattern tries its ways to match one after the other: the left alternative before the right one,
and more characters of a class before fewer. `TokenPattern.run` lists all ways in this order, and
the first one after which the rest of the pattern matches too decides.
-/

namespace ItemFilter

open Text

/-- A pattern. A text may match it in several ways. -/
inductive TokenPattern where
  | empty
  /-- One character of a class. -/
  | one (accepts : Char → Bool)
  /-- Any number of characters of a class, as many as possible. -/
  | many (accepts : Char → Bool)
  | seq (first second : TokenPattern)
  /-- Either of two patterns, the left one if possible. -/
  | alt (left right : TokenPattern)
  /-- The end of the text. -/
  | stop

namespace TokenPattern

/-- The ways to split a text behind some leading characters of a class, the longest lead first. -/
def leads (accepts : Char → Bool) : List Char → List (List Char × List Char)
  | [] => [([], [])]
  | c :: cs =>
    if accepts c then
      (leads accepts cs).map (fun (taken, rest) => (c :: taken, rest)) ++ [([], c :: cs)]
    else [([], c :: cs)]

/-- The ways in which a pattern matches at the start of a text, in the order in which they are
tried: what it takes, and what is left. -/
def run : TokenPattern → List Char → List (List Char × List Char)
  | empty, cs => [([], cs)]
  | one accepts, c :: cs => if accepts c then [([c], cs)] else []
  | one _, [] => []
  | many accepts, cs => leads accepts cs
  | seq first second, cs =>
    (first.run cs).flatMap fun (taken, rest) =>
      (second.run rest).map fun (more, last) => (taken ++ more, last)
  | alt left right, cs => left.run cs ++ right.run cs
  | stop, cs => if cs.isEmpty then [([], [])] else []

/-- One character of each class, in turn. -/
def sequence : List (Char → Bool) → TokenPattern
  | [] => empty
  | accepts :: classes => seq (one accepts) (sequence classes)

/-- A word, letter by letter. -/
def literal (word : String) : TokenPattern := sequence (word.toList.map fun letter c => c == letter)

/-- The small letter to which a character folds. Besides the capitals, a long s and the sign for
kelvin fold to letters of ASCII. -/
def foldCase (c : Char) : Char :=
  if c == 'ſ' then 's' else if c == '\u212A' then 'k' else c.toLower

/-- A word of small letters, whatever the case of its letters. -/
def folded (word : String) : TokenPattern :=
  sequence (word.toList.map fun letter c => foldCase c == letter)

/-- A pattern or nothing. -/
def optional (pattern : TokenPattern) : TokenPattern := alt pattern empty

/-- At least one character of a class. -/
def oneOrMore (accepts : Char → Bool) : TokenPattern := seq (one accepts) (many accepts)

/-- A character of a class, or the end of the text. -/
def oneOrStop (accepts : Char → Bool) : TokenPattern := alt (one accepts) stop

end TokenPattern

/-- An entry of the table of tokens. -/
structure TokenRule (α : Type) where
  kind : Lexeme.Kind
  /-- The part of the pattern that is captured. -/
  token : TokenPattern
  /-- The part of the pattern that stands behind the token. -/
  boundary : TokenPattern
  /-- What a captured token stands for. -/
  convert : List Char → Option α

namespace TokenRule

variable {α : Type}

/-- The token that a rule captures at the very start of a text. -/
def capture? (rule : TokenRule α) (cs : List Char) : Option (List Char) :=
  ((rule.token.run cs).find? fun split => !(rule.boundary.run split.2).isEmpty).map Prod.fst

/-- The value of the token at the very start of a text, and how many bytes it has. A token that
cannot be converted is none. -/
def matches? (rule : TokenRule α) (cs : List Char) : Option (α × Nat) := do
  let token ← rule.capture? cs
  let value ← rule.convert token
  return (value, byteLength token)

/-- Whether a rule finds its token at the very start of a text. -/
def probe (rule : TokenRule α) (cs : List Char) : Bool := (rule.matches? cs).isSome

/-- The text without the double quotes at either end. -/
def trimQuotes (cs : List Char) : List Char :=
  ((cs.dropWhile (· == '"')).reverse.dropWhile (· == '"')).reverse

/-- One of the five operators, behind which no comparison sign stands. -/
def operator : TokenRule Operator where
  kind := .operator
  token := .alt (.literal "<=") (.alt (.literal ">=") (.alt (.literal "=")
    (.alt (.literal "<") (.literal ">"))))
  boundary := .oneOrStop fun c => !Lexeme.isComparison c
  convert token := Operator.ofSymbol? (String.ofList token)

/-- Digits, which may have a sign in front. An integer of more than 64 bits becomes the nearest one
that has 64. -/
def number : TokenRule Int where
  kind := .number
  token := .seq (.optional (.one fun c => c == '+' || c == '-')) (.oneOrMore Char.isDigit)
  boundary := .oneOrStop isBlank
  convert token := (integer? token).map clampInt64

/-- A truth value, bare or in quotes. The pattern folds the case of all letters, the conversion that
of ASCII letters only. -/
def boolean : TokenRule Bool where
  kind := .boolean
  token := .alt (.folded "\"true\"") (.alt (.folded "\"false\"")
    (.alt (.folded "true") (.folded "false")))
  boundary := .oneOrStop isBlank
  convert token := Lexeme.truthValue? (trimQuotes token)

/-- Letters. -/
def word : TokenRule String where
  kind := .word
  token := .oneOrMore Lexeme.isLetter
  boundary := .oneOrStop isBlank
  convert token := some (String.ofList token)

/-- Anything but quotes in quotes, or a run of characters that are neither blanks nor quotes nor
comparison signs and do not start like a comment. -/
def string : TokenRule String where
  kind := .string
  token := .alt
    (.seq (.one (· == '"')) (.seq (.many (· != '"')) (.one (· == '"'))))
    (.seq (.one fun c => Lexeme.isBare c && c != '#') (.many Lexeme.isBare))
  boundary := .oneOrStop isBlank
  convert token := some (String.ofList (Lexeme.unquote token))

/-- The rules in the order in which they are tried where any token may stand: the kind of each, and
whether it finds its token. -/
def priority : List (Lexeme.Kind × (List Char → Bool)) :=
  [(operator.kind, operator.probe), (number.kind, number.probe), (boolean.kind, boolean.probe),
   (word.kind, word.probe), (string.kind, string.probe)]

/-- The kind of the first rule that finds its token at the very start of a text. -/
def kind? (cs : List Char) : Option Lexeme.Kind :=
  (priority.find? fun (_, probe) => probe cs).map Prod.fst

end TokenRule

end ItemFilter
