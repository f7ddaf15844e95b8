import ItemFilter.Toml.Table
import ItemFilter.Toml.Token

/-!
# The outline of a TOML document

The statements of a document as they are written: which keys, values, arrays and tables there are,
and the text of each key and value. The outline depends on the tokens only. Whether the texts mean
anything, and whether the statements agree with each other, is not decided here.
-/

namespace ItemFilter.Toml

/-- How deep arrays and inline tables may be nested, and how many keys a dotted key may have. -/
def maxDepth : Nat := 80

/-- A dotted key as it is written: the texts of its keys. -/
abbrev WrittenKey := List (List Char)

/-- A value as it is written. -/
inductive Written where
  /-- A string with its delimiters, or a word. -/
  | scalar (text : List Char)
  | array (items : List Written)
  /-- A table in braces, by its pairs in order. -/
  | table (pairs : List (WrittenKey × Written))
deriving Repr

/-- The tokens without leading spaces. -/
def skipBlank (tokens : List Token) : List Token := tokens.dropWhile Token.isBlank

/-- The tokens without leading spaces, line breaks and comments. -/
def skipFiller (tokens : List Token) : List Token := tokens.dropWhile Token.isFiller

/-- A key without dots: a word, or a string on one line. -/
def simpleKey? : List Token → Option (List Char × List Token)
  | .word text :: rest | .quoted false text :: rest => some (text, rest)
  | _ => none

/-- A dotted key of at most `fuel` keys, and what follows it and the spaces behind. -/
def keysWithin? : Nat → List Token → Option (WrittenKey × List Token)
  | 0, _ => none
  | fuel + 1, tokens => do
    let (key, rest) ← simpleKey? tokens
    match skipBlank rest with
    | .dot :: rest =>
      let (keys, rest) ← keysWithin? fuel (skipBlank rest)
      some (key :: keys, rest)
    | rest => some ([key], rest)

/-- A dotted key, and what follows it and the spaces behind. -/
def dottedKey? (tokens : List Token) : Option (WrittenKey × List Token) :=
  keysWithin? tokens.length tokens

/-- The words and dots that continue a word, also behind spaces, and what follows them. -/
def wordTail : List Token → List Char × List Token
  | .word text :: rest => (wordTail rest).map (text ++ ·) id
  | .dot :: rest => (wordTail rest).map ('.' :: ·) id
  | .blank space :: .word text :: rest => (wordTail rest).map (space ++ text ++ ·) id
  | .blank space :: .dot :: rest => (wordTail rest).map (space ++ '.' :: ·) id
  | rest => ([], rest)

/-- A string or a word. -/
def scalar? : List Token → Option (Written × List Token)
  | .quoted _ text :: rest => some (.scalar text, rest)
  | .word text :: rest => some ((wordTail rest).map (fun more => .scalar (text ++ more)) id)
  | .dot :: rest => some ((wordTail rest).map (fun more => .scalar ('.' :: more)) id)
  | _ => none

/-- A dotted key, an equality sign and a value, with what `skip` skips around the sign. -/
def pair? (skip : List Token → List Token) (value? : List Token → Option (Written × List Token))
    (tokens : List Token) : Option ((WrittenKey × Written) × List Token) := do
  let (key, rest) ← dottedKey? tokens
  match skip rest with
  | .equals :: rest =>
    let (value, rest) ← value? (skip rest)
    some ((key, value), rest)
  | _ => none

/-- The items of a list with less than `fuel` items, up to the closing token. There is a comma
between items, one may follow the last item, and filler may stand anywhere around them. -/
def items? {α : Type} (item? : List Token → Option (α × List Token)) (close : Token) :
    Nat → List Token → Option (List α × List Token)
  | 0, _ => none
  | fuel + 1, tokens =>
    match skipFiller tokens with
    | [] => none
    | token :: rest =>
      if token = close then some ([], rest)
      else do
        let (item, rest) ← item? (token :: rest)
        match skipFiller rest with
        | .comma :: rest =>
          let (items, rest) ← items? item? close fuel rest
          some (item :: items, rest)
        | token :: rest => if token = close then some ([item], rest) else none
        | [] => none

/-- A value in which arrays and inline tables are nested at most so deep. -/
def value? : Nat → List Token → Option (Written × List Token)
  | 0, tokens => scalar? tokens
  | depth + 1, .openBracket :: rest =>
    (items? (value? depth) .closeBracket rest.length rest).map fun (items, rest) =>
      (.array items, rest)
  | depth + 1, .openBrace :: rest =>
    (items? (pair? skipFiller (value? depth)) .closeBrace rest.length rest).map
      fun (pairs, rest) => (.table pairs, rest)
  | _ + 1, tokens => scalar? tokens

/-- A statement as it is written. -/
abbrev WrittenStatement := Statement WrittenKey Written

/-- The statement at the start of a document. -/
def statement? : List Token → Option (WrittenStatement × List Token)
  | .openBracket :: .openBracket :: rest => do
    match ← dottedKey? (skipBlank rest) with
    | (key, .closeBracket :: .closeBracket :: rest) => some (.tables key, rest)
    | _ => none
  | .openBracket :: rest => do
    match ← dottedKey? (skipBlank rest) with
    | (key, .closeBracket :: rest) => some (.table key, rest)
    | _ => none
  | tokens =>
    (pair? skipBlank (value? maxDepth) tokens).map fun ((key, value), rest) =>
      (.assign key value, rest)

/-- Whether nothing but spaces and a comment comes before the end of the line. -/
def atLineEnd (tokens : List Token) : Bool :=
  match skipBlank tokens with
  | [] | .comment _ :: _ | .lineBreak _ :: _ => true
  | _ => false

/-- The statements of a document of at most `fuel` statements. Each ends its line. -/
def statementsWithin? : Nat → List Token → Option (List WrittenStatement)
  | fuel, tokens =>
    match skipFiller tokens, fuel with
    | [], _ => some []
    | _ :: _, 0 => none
    | tokens, fuel + 1 => do
      let (statement, rest) ← statement? tokens
      if atLineEnd rest then
        let statements ← statementsWithin? fuel rest
        some (statement :: statements)
      else none

/-- The text without the byte order mark that it may start with. -/
def dropByteOrderMark : List Char → List Char
  | '\uFEFF' :: cs => cs
  | cs => cs

/-- The statements of a document. -/
def outline? (text : String) : Option (List WrittenStatement) := do
  let tokens ← Token.scan? (dropByteOrderMark text.toList)
  statementsWithin? tokens.length tokens

end ItemFilter.Toml
