import ItemFilter.Toml.Reader

/-!
# Writing TOML

How strings, arrays of strings, and documents of them are written. A string takes the first of the
forms basic, literal, basic on several lines and literal on several lines in which nothing has to be
escaped but tabs, and a basic form with escapes if there is none. A document has its strings and
arrays first, and then its tables, each under a header.
-/

namespace ItemFilter.Toml

/-- The written forms of a string. -/
inductive Form where
  | basic
  | literal
  | multiBasic
  | multiLiteral
deriving DecidableEq, Repr

/-- Whether a character occurs three times in a row. -/
def hasTriple (q : Char) : List Char → Bool
  | a :: b :: c :: cs => (a == q && b == q && c == q) || hasTriple q (b :: c :: cs)
  | _ => false

/-- Whether a character is a control character that no form on several lines can hold as it is. -/
def isHardControl (c : Char) : Bool := isControl c && c != '\n'

/-- The form in which a string is written. -/
def formOf (cs : List Char) : Form :=
  if !cs.any isControl && !cs.elem '\\' && !cs.elem '"' then .basic
  else if !cs.any isControl && !cs.elem '\'' then .literal
  else if !cs.any isHardControl && !cs.elem '\\' && !hasTriple '"' cs then .multiBasic
  else if !cs.any isHardControl && !hasTriple '\'' cs then .multiLiteral
  else if cs.elem '\n' then .multiBasic
  else .basic

/-- The hexadecimal digit of a number below sixteen. -/
def hexChar (n : Nat) : Char := if n < 10 then Char.ofNat (48 + n) else Char.ofNat (55 + n)

/-- A character as it is written in a basic string, quotes aside. Line breaks stay in a string on
several lines. -/
def escaped (multi : Bool) (c : Char) : List Char :=
  if c = '\x08' then ['\\', 'b']
  else if c = '\t' then ['\\', 't']
  else if c = '\n' then if multi then ['\n'] else ['\\', 'n']
  else if c = '\x0c' then ['\\', 'f']
  else if c = '\r' then ['\\', 'r']
  else if c = '\\' then ['\\', '\\']
  else if isControl c then ['\\', 'u', '0', '0', hexChar (c.toNat / 16), hexChar (c.toNat % 16)]
  else [c]

/-- The content of a basic string as it is written. On one line every quote is escaped, on several
lines every third of a run; `quotes` counts those that were just written as they are. -/
def basicContent (multi : Bool) : Nat → List Char → List Char
  | _, [] => []
  | quotes, c :: cs =>
    if c = '"' then
      if multi && quotes < 2 then '"' :: basicContent multi (quotes + 1) cs
      else '\\' :: '"' :: basicContent multi 0 cs
    else escaped multi c ++ basicContent multi 0 cs

/-- The line break behind the opening delimiter of a string on several lines, which a string that
holds a line break has. -/
def opening (cs : List Char) : List Char := if cs.elem '\n' then ['\n'] else []

/-- A string as it is written. -/
def quote (text : String) : String :=
  let cs := text.toList
  String.ofList <| match formOf cs with
    | .basic => '"' :: basicContent false 0 cs ++ ['"']
    | .literal => '\'' :: cs ++ ['\'']
    | .multiBasic =>
      "\"\"\"".toList ++ opening cs ++ basicContent true 0 cs ++ "\"\"\"".toList
    | .multiLiteral => "'''".toList ++ opening cs ++ cs ++ "'''".toList

/-- An array of strings as it is written: on one line up to one item, else with one item to a
line. -/
def quoteAll : List String → String
  | [] => "[]"
  | [text] => "[" ++ quote text ++ "]"
  | texts => "[\n" ++ String.join (texts.map fun text => "    " ++ quote text ++ ",\n") ++ "]"

/-- The text of a string value. -/
def stringOf? : Value → Option String
  | .string text => some text
  | _ => none

/-- A value as it is written, if it is a string or an array of strings. -/
def valueText? : Value → Option String
  | .string text => some (quote text)
  | .array items => (items.mapM stringOf?).map quoteAll
  | _ => none

/-- A key as it is written, if it can be written without quotes. -/
def keyText? (key : String) : Option String :=
  if !key.isEmpty && key.toList.all isBareKey then some key else none

/-- The line of a key and its value. -/
def entryLine? : String × Value → Option String
  | (key, value) => do
    let key ← keyText? key
    let text ← valueText? value
    some (key ++ " = " ++ text ++ "\n")

/-- The lines of a table: an empty one, its header, and those of its entries. -/
def tableLines? : String × Value → Option String
  | (key, .table .header entries) => do
    let key ← keyText? key
    let lines ← entries.mapM entryLine?
    some ("\n[" ++ key ++ "]\n" ++ String.join lines)
  | _ => none

/-- Whether a value is a table with a header. -/
def isHeaded : Value → Bool
  | .table .header _ => true
  | _ => false

/-- Writes a document. Nothing stands behind the tables, since it would be read as part of the last
one. -/
def write? (entries : Entries) : Option String := do
  let lines ← (entries.takeWhile fun entry => !isHeaded entry.2).mapM entryLine?
  let sections ← (entries.dropWhile fun entry => !isHeaded entry.2).mapM tableLines?
  some (String.join lines ++ String.join sections)

end ItemFilter.Toml
