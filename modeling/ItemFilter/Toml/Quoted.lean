/-!
# TOML strings

The four written forms of a string: basic and literal, each on one line or on several. Basic strings
have escapes, literal strings have none. The readers are given what follows the opening delimiter
and answer the content and the rest of the text.
-/

namespace ItemFilter.Toml

/-- Whether a character is a control character other than the tab. No string and no comment holds
one as it is. -/
def isControl (c : Char) : Bool := c.toNat < 0x20 && c != '\t' || c.toNat == 0x7F

/-- The value of a hexadecimal digit. -/
def hexDigit? (c : Char) : Option Nat :=
  if c.isDigit then some (c.toNat - '0'.toNat)
  else if 'a' ≤ c ∧ c ≤ 'f' then some (c.toNat - 'a'.toNat + 10)
  else if 'A' ≤ c ∧ c ≤ 'F' then some (c.toNat - 'A'.toNat + 10)
  else none

/-- The character whose code point is written with exactly `count` hexadecimal digits. -/
def codePoint? (count : Nat) (ds : List Char) : Option Char := do
  let digits ← ds.mapM hexDigit?
  let n := digits.foldl (fun n d => 16 * n + d) 0
  if digits.length = count ∧ (n < 0xD800 ∨ 0xDFFF < n ∧ n < 0x110000) then some (Char.ofNat n)
  else none

/-- The character that an escape stands for, and how many characters behind the backslash it
takes. -/
def escape? : List Char → Option (Char × Nat)
  | 'b' :: _ => some ('\x08', 1)
  | 't' :: _ => some ('\t', 1)
  | 'n' :: _ => some ('\n', 1)
  | 'f' :: _ => some ('\x0c', 1)
  | 'r' :: _ => some ('\r', 1)
  | 'e' :: _ => some ('\x1b', 1)
  | '"' :: _ => some ('"', 1)
  | '\\' :: _ => some ('\\', 1)
  | 'x' :: cs => (codePoint? 2 (cs.take 2)).map fun c => (c, 3)
  | 'u' :: cs => (codePoint? 4 (cs.take 4)).map fun c => (c, 5)
  | 'U' :: cs => (codePoint? 8 (cs.take 8)).map fun c => (c, 9)
  | _ => none

/-- Puts a character in front of a content that was read. -/
def consContent (c : Char) (read : Option (List Char × List Char)) :
    Option (List Char × List Char) :=
  read.map fun (content, rest) => (c :: content, rest)

/-- The content of a basic string up to its closing quote. -/
def basic? (cs : List Char) : Option (List Char × List Char) :=
  match cs with
  | [] => none
  | '"' :: rest => some ([], rest)
  | '\\' :: rest =>
    match escape? rest with
    | none => none
    | some (c, taken) => consContent c (basic? (rest.drop taken))
  | c :: rest => if isControl c then none else consContent c (basic? rest)
termination_by cs.length

/-- Whether a character is a space or a tab. -/
def isSpace (c : Char) : Bool := c == ' ' || c == '\t'

/-- The number of spaces, tabs and line breaks at the start of a text, in characters. -/
def spacing : List Char → Nat
  | '\r' :: '\n' :: cs => spacing cs + 2
  | c :: cs => if isSpace c || c == '\n' then spacing cs + 1 else 0
  | [] => 0

/-- How many characters behind a backslash at the end of a line are dropped: the blanks of the line,
its line break, and all blanks and line breaks that follow. It is zero if the line does not end
there. -/
def continuation (cs : List Char) : Nat :=
  match cs.dropWhile isSpace with
  | '\n' :: _ | '\r' :: '\n' :: _ => spacing cs
  | _ => 0

/-- The content of a basic string on several lines up to its closing quotes, of which up to two may
belong to the content. -/
def multiBasic? (cs : List Char) : Option (List Char × List Char) :=
  match cs with
  | [] => none
  | '"' :: '"' :: '"' :: '"' :: '"' :: rest => some (['"', '"'], rest)
  | '"' :: '"' :: '"' :: '"' :: rest => some (['"'], rest)
  | '"' :: '"' :: '"' :: rest => some ([], rest)
  | '\\' :: rest =>
    if continuation rest > 0 then multiBasic? (rest.drop (continuation rest))
    else
      match escape? rest with
      | none => none
      | some (c, taken) => consContent c (multiBasic? (rest.drop taken))
  | '\r' :: '\n' :: rest => consContent '\r' (consContent '\n' (multiBasic? rest))
  | c :: rest => if isControl c && c != '\n' then none else consContent c (multiBasic? rest)
termination_by cs.length
decreasing_by
  all_goals simp only [List.length_cons, List.length_drop]
  all_goals omega

/-- The content of a literal string up to its closing apostrophe. -/
def literal? : List Char → Option (List Char × List Char)
  | [] => none
  | '\'' :: rest => some ([], rest)
  | c :: rest => if isControl c then none else consContent c (literal? rest)

/-- The content of a literal string on several lines up to its closing apostrophes, of which up to
two may belong to the content. -/
def multiLiteral? : List Char → Option (List Char × List Char)
  | [] => none
  | '\'' :: '\'' :: '\'' :: '\'' :: '\'' :: rest => some (['\'', '\''], rest)
  | '\'' :: '\'' :: '\'' :: '\'' :: rest => some (['\''], rest)
  | '\'' :: '\'' :: '\'' :: rest => some ([], rest)
  | '\r' :: '\n' :: rest => consContent '\r' (consContent '\n' (multiLiteral? rest))
  | c :: rest => if isControl c && c != '\n' then none else consContent c (multiLiteral? rest)

/-- The text without the line break that it starts with, if it does. -/
def dropLineBreak : List Char → List Char
  | '\n' :: cs => cs
  | '\r' :: '\n' :: cs => cs
  | cs => cs

/-- A string in any of its forms, with its delimiters. -/
def string? : List Char → Option (List Char × List Char)
  | '"' :: '"' :: '"' :: cs => multiBasic? (dropLineBreak cs)
  | '"' :: cs => basic? cs
  | '\'' :: '\'' :: '\'' :: cs => multiLiteral? (dropLineBreak cs)
  | '\'' :: cs => literal? cs
  | _ => none

/-- The content of a text that is one string in any of its forms. -/
def stringContent? (text : List Char) : Option String :=
  match string? text with
  | some (content, []) => some (String.ofList content)
  | _ => none

end ItemFilter.Toml
