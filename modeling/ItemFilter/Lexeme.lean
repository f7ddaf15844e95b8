import ItemFilter.Text.Blank
import ItemFilter.Text.Decimal

/-!
# Lexemes

The five kinds of words that rows are made of. Each recogniser looks at the very start of a text
and answers the value of the lexeme that stands there together with the characters it takes.

Numbers, booleans, words and bare strings reach exactly to the next blank, so each of them is a
test on the first run of characters that are not blank. A quoted string may hold blanks; it ends at
its closing quote, which has to be followed by a blank or the end. An operator is the longest run of
comparison signs, which therefore never splits.
-/

namespace ItemFilter

/-- A comparison operator of a rule. -/
inductive Operator where
  | less
  | lessEqual
  | equal
  | greaterEqual
  | greater
deriving DecidableEq, Repr

namespace Operator

/-- All operators. -/
def all : List Operator := [less, lessEqual, equal, greaterEqual, greater]

/-- How an operator is written. -/
def symbol : Operator → String
  | less => "<"
  | lessEqual => "<="
  | equal => "="
  | greaterEqual => ">="
  | greater => ">"

/-- The operator that is written so, if there is one. -/
def ofSymbol? (text : String) : Option Operator := all.find? fun op => op.symbol == text

end Operator

/-- A value read at the start of a text, and the characters that spell it. -/
structure Lexeme (α : Type) where
  value : α
  text : List Char
deriving DecidableEq, Repr

namespace Lexeme

open Text

/-- The kinds of lexemes. -/
inductive Kind where
  | operator
  | number
  | boolean
  | word
  | string
deriving DecidableEq, Repr

namespace Kind

/-- The name of a kind with its article, as diagnostics have it. -/
def describe : Kind → String
  | operator => "an operator"
  | number => "a number"
  | boolean => "a boolean"
  | word => "a word"
  | string => "a string"

end Kind

/-- Whether a character may stand in an operator. -/
def isComparison (c : Char) : Bool := c == '<' || c == '=' || c == '>'

/-- Whether a character may stand in a word: an ASCII letter or `ö`. -/
def isLetter (c : Char) : Bool := c.isAlpha || c == 'ö'

/-- Whether a character may stand in a bare string. -/
def isBare (c : Char) : Bool := !isBlank c && c != '"' && !isComparison c

/-- An operator: the longest run of comparison signs, if it is one of the five operators. -/
def operator? (cs : List Char) : Option (Lexeme Operator) :=
  let run := cs.takeWhile isComparison
  (Operator.ofSymbol? (String.ofList run)).map fun op => ⟨op, run⟩

/-- A number: an optional sign and digits, up to the next blank. -/
def number? (cs : List Char) : Option (Lexeme Int) :=
  let run := firstRun cs
  (integer? run).map fun n => ⟨clampInt64 n, run⟩

/-- The content of a text that is enclosed in double quotes, which may hold none itself, and any
other text unchanged. -/
def unquote (cs : List Char) : List Char :=
  match cs with
  | '"' :: inner => if inner.getLast? == some '"' then inner.dropLast else cs
  | _ => cs

/-- The truth value that a text spells, whatever the case of its ASCII letters. -/
def truthValue? (cs : List Char) : Option Bool :=
  let lower := String.ofList (cs.map Char.toLower)
  if lower == "true" then some true
  else if lower == "false" then some false
  else none

/-- A boolean: `true` or `false` in any case, bare or in one pair of quotes, up to the next
blank. -/
def boolean? (cs : List Char) : Option (Lexeme Bool) :=
  let run := firstRun cs
  (truthValue? (unquote run)).map fun b => ⟨b, run⟩

/-- A word: one or more letters up to the next blank. -/
def word? (cs : List Char) : Option (Lexeme String) :=
  let run := firstRun cs
  if !run.isEmpty && run.all isLetter then some ⟨String.ofList run, run⟩ else none

/-- A bare string: a run of characters up to the next blank, without quotes and comparison signs
and not starting like a comment. -/
def bareString? (cs : List Char) : Option (Lexeme String) :=
  let run := firstRun cs
  if !run.isEmpty && run.head? != some '#' && run.all isBare then
    some ⟨String.ofList run, run⟩
  else none

/-- A quoted string, given what follows its opening quote: all up to the closing quote, after which
a blank or the end has to come. -/
def quotedString? (cs : List Char) : Option (Lexeme String) :=
  let inner := cs.takeWhile fun c => c != '"'
  match cs.drop inner.length with
  | '"' :: after =>
    if atBoundary after then some ⟨String.ofList inner, '"' :: inner ++ ['"']⟩ else none
  | _ => none

/-- A string, quoted or bare. The value has no quotes. -/
def string? : List Char → Option (Lexeme String)
  | '"' :: cs => quotedString? cs
  | cs => bareString? cs

/-- The kind of the lexeme at the start of a text. Of the kinds that fit, the first in the order
operator, number, boolean, word, string is answered. -/
def kind? (cs : List Char) : Option Kind :=
  if (operator? cs).isSome then some .operator
  else if (number? cs).isSome then some .number
  else if (boolean? cs).isSome then some .boolean
  else if (word? cs).isSome then some .word
  else if (string? cs).isSome then some .string
  else none

end Lexeme

end ItemFilter
