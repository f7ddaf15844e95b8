import ItemFilter.Rule.Argument

/-!
# Reading a row

`Line.parse` reads the text of one row. Nothing that the text holds makes it fail, except a line
break, which a row cannot hold.
-/

namespace ItemFilter

namespace Line

/-- The line of a row that has text but does not start with a word. -/
def unreadable (cursor : Cursor) (file : Option String) : Line :=
  make cursor.lineRange (.unknown none)
    (Messages.none.report file (.unreadableKeyword cursor.peek) cursor.trimmedRange)

/-- The line of a row that starts with a word other than a keyword. The game skips such a row, so it
is never invalid. -/
def unrecognised (cursor : Cursor) (word : Token String) (file : Option String)
    (policy : UnknownKeywords) : Line :=
  make cursor.lineRange (.unknown (some word))
    (match policy with
      | .warn => Messages.none.report file (.unknownKeyword word.value) word.range
      | .ignore => .none)

/-- The line of a row that starts with a keyword; the cursor stands behind it. -/
def recognised (cursor : Cursor) (word : Token String) (keyword : Keyword) (file : Option String)
    (vocabulary : Vocabulary) : Line :=
  let draft := Draft.start cursor word.value file
  match keyword with
  | .block visibility =>
    let outcome := draft.header
    make cursor.lineRange (.block ⟨⟨visibility, word.range⟩, outcome.comment⟩) outcome.messages
  | .rule name =>
    let outcome := draft.argument vocabulary name
    make cursor.lineRange
      (.rule ⟨⟨name, word.range⟩, outcome.operator, outcome.value, outcome.comment⟩)
      outcome.messages

/-- The line of a row with the cursor at its start. -/
def read (cursor : Cursor) (file : Option String) (vocabulary : Vocabulary) : Line :=
  if cursor.isEmpty then make cursor.lineRange .empty .none
  else match cursor.comment with
    | some (text, _) => make cursor.lineRange (.comment text) .none
    | none =>
      match cursor.next Lexeme.word? with
      | none => unreadable cursor file
      | some (word, cursor) =>
        match Keyword.ofName? word.value with
        | none => unrecognised cursor word file vocabulary.unknownKeywords
        | some keyword => recognised cursor word keyword file vocabulary

/-- Reads the text of one row. -/
def parse (text : String) (row : Nat) (file : Option String) (vocabulary : Vocabulary) :
    Except Misuse Line :=
  (Cursor.ofRow row text).map fun cursor => read cursor file vocabulary

end Line

end ItemFilter
