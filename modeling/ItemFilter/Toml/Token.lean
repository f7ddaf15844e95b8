import ItemFilter.Toml.Quoted

/-!
# TOML tokens

A document is a sequence of tokens: punctuation, runs of spaces, line breaks, comments, strings and
words. Where a token ends does not depend on whether it means anything: a string ends at its closing
delimiter, whatever its escapes are, and a word is whatever stands between separators. Only a lone
carriage return and a control character in a comment cannot be part of any token. Main statement:
the tokens of a text make up the text.
-/

namespace ItemFilter.Toml

/-- A token of a document, by its text where that is not fixed. -/
inductive Token where
  | dot
  | equals
  | comma
  | openBracket
  | closeBracket
  | openBrace
  | closeBrace
  /-- A run of spaces and tabs. -/
  | blank (text : List Char)
  | lineBreak (text : List Char)
  /-- A comment from its number sign to the end of its line. -/
  | comment (text : List Char)
  /-- A string with its delimiters, in a form for one line or for several lines. -/
  | quoted (isMulti : Bool) (text : List Char)
  /-- Characters up to the next separator. -/
  | word (text : List Char)
deriving DecidableEq, Repr

namespace Token

/-- The text of a token. -/
def text : Token → List Char
  | dot => ['.']
  | equals => ['=']
  | comma => [',']
  | openBracket => ['[']
  | closeBracket => [']']
  | openBrace => ['\x7b']
  | closeBrace => ['\x7d']
  | blank text | lineBreak text | comment text | quoted _ text | word text => text

/-- Whether a token is a run of spaces. -/
def isBlank : Token → Bool
  | blank _ => true
  | _ => false

/-- Whether a token is a run of spaces, a line break or a comment. -/
def isFiller : Token → Bool
  | blank _ | lineBreak _ | comment _ => true
  | _ => false

end Token

/-- The number of characters up to and with the closing quote of a basic string. A string without
one ends with its line. -/
def basicExtent : List Char → Nat
  | [] | '\n' :: _ => 0
  | '"' :: _ => 1
  | '\\' :: '\\' :: cs => basicExtent cs + 2
  | '\\' :: '"' :: cs => basicExtent cs + 2
  | _ :: cs => basicExtent cs + 1

/-- The number of characters up to and with the closing apostrophe of a literal string. A string
without one ends with its line. -/
def literalExtent : List Char → Nat
  | [] | '\n' :: _ => 0
  | '\'' :: _ => 1
  | _ :: cs => literalExtent cs + 1

/-- How many quotes belong to a string behind three that close it: as many as there are, up to
two. -/
def extraQuotes (quote : Char) (cs : List Char) : Nat :=
  min 2 (cs.takeWhile (· == quote)).length

/-- The number of characters up to and with the closing quotes of a basic string on several lines.
A string without them ends with the document. -/
def multiBasicExtent : List Char → Nat
  | [] => 0
  | '"' :: '"' :: '"' :: cs => extraQuotes '"' cs + 3
  | '\\' :: '\\' :: cs => multiBasicExtent cs + 2
  | '\\' :: '"' :: cs => multiBasicExtent cs + 2
  | _ :: cs => multiBasicExtent cs + 1

/-- The number of characters up to and with the closing apostrophes of a literal string on several
lines. A string without them ends with the document. -/
def multiLiteralExtent : List Char → Nat
  | [] => 0
  | '\'' :: '\'' :: '\'' :: cs => extraQuotes '\'' cs + 3
  | _ :: cs => multiLiteralExtent cs + 1

/-- Whether a character may stand in a word. Quotes may, though not at its start. -/
def isWordChar (c : Char) : Bool := !".=,[]\x7b\x7d \t#\r\n".toList.elem c

namespace Token

/-- The token at the start of a text, which is given by its first character and the others, and how
many of the others belong to the token. -/
def first? (c : Char) (cs : List Char) : Option (Token × Nat) :=
  let take (build : List Char → Token) (n : Nat) : Option (Token × Nat) :=
    some (build (c :: cs.take n), n)
  let span (p : Char → Bool) : Nat := (cs.takeWhile p).length
  match c, cs with
  | '.', _ => some (dot, 0)
  | '=', _ => some (equals, 0)
  | ',', _ => some (comma, 0)
  | '[', _ => some (openBracket, 0)
  | ']', _ => some (closeBracket, 0)
  | '\x7b', _ => some (openBrace, 0)
  | '\x7d', _ => some (closeBrace, 0)
  | ' ', _ | '\t', _ => take blank (span isSpace)
  | '\n', _ => take lineBreak 0
  | '\r', '\n' :: _ => take lineBreak 1
  | '\r', _ => none
  | '#', cs =>
    let body := cs.takeWhile fun c => c != '\n' && c != '\r'
    if body.any isControl then none else take comment body.length
  | '"', '"' :: '"' :: cs => take (quoted true) (multiBasicExtent cs + 2)
  | '"', cs => take (quoted false) (basicExtent cs)
  | '\'', '\'' :: '\'' :: cs => take (quoted true) (multiLiteralExtent cs + 2)
  | '\'', cs => take (quoted false) (literalExtent cs)
  | _, _ => take word (span isWordChar)

/-- The tokens of a text, if it is made of tokens. -/
def scan? (cs : List Char) : Option (List Token) :=
  match cs with
  | [] => some []
  | c :: cs =>
    match first? c cs with
    | none => none
    | some (token, taken) => (scan? (cs.drop taken)).map (token :: ·)
termination_by cs.length
decreasing_by
  simp only [List.length_cons, List.length_drop]
  omega

end Token

end ItemFilter.Toml
