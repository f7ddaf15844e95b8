import ItemFilter.Cursor
import ItemFilter.Problem

/-!
# Drafts of rules

A draft is a rule that is being read: the cursor behind what was read so far, the operator and the
messages. The steps that the rules share are here. An operator comes first; a required argument that
is missing is reported over the rest of the row and ends the reading; a number out of bounds is
reported on itself; what follows the last argument may only be a comment.
-/

namespace ItemFilter

/-- What came out of reading a rule. -/
structure Outcome (α : Type) where
  value : α
  operator : Option (Token Operator)
  comment : Option (Token String)
  messages : Messages
deriving DecidableEq, Repr

namespace Outcome

/-- Replaces the value of an outcome. -/
def map {α β : Type} (f : α → β) (o : Outcome α) : Outcome β :=
  ⟨f o.value, o.operator, o.comment, o.messages⟩

end Outcome

/-- A rule that is being read. -/
structure Draft where
  cursor : Cursor
  /-- The word that the row starts with. -/
  keyword : String
  file : Option String
  operator : Option (Token Operator)
  messages : Messages
deriving DecidableEq, Repr

namespace Draft

/-- The draft of a rule whose keyword is behind the cursor. -/
def start (cursor : Cursor) (keyword : String) (file : Option String) : Draft :=
  ⟨cursor, keyword, file, none, .none⟩

/-- Reports a problem. -/
def report (d : Draft) (problem : Problem) (range : Range) : Draft :=
  { d with messages := d.messages.report d.file problem range }

/-- Reads a lexeme if it comes next. -/
def take {α : Type} (d : Draft) (recognise : List Char → Option (Lexeme α)) :
    Option (Token α) × Draft :=
  match d.cursor.next recognise with
  | none => (none, d)
  | some (token, cursor) => (some token, { d with cursor })

/-- Reads an operator if there is one. -/
def anyOperator (d : Draft) : Draft :=
  let (operator, d) := d.take Lexeme.operator?
  { d with operator }

/-- Reads an operator and reports it unless it is the equality sign. -/
def equalityOperator (d : Draft) : Draft :=
  let d := d.anyOperator
  match d.operator with
  | none => d
  | some op =>
    if op.value = .equal then d else d.report (.invalidOperator d.keyword op.value) op.range

/-- Reads an operator and reports it. -/
def noOperator (d : Draft) : Draft :=
  let d := d.anyOperator
  match d.operator with
  | none => d
  | some op => d.report (.operatorNotPermitted d.keyword op.value) op.range

/-- Reports that a lexeme is missing, over the rest of the row. -/
def missing (d : Draft) (problem : Problem) : Draft := d.report problem d.cursor.restOfLine

/-- Reads a lexeme that has to come next; its absence is reported. -/
def require {α : Type} (d : Draft) (kind : Lexeme.Kind)
    (recognise : List Char → Option (Lexeme α)) : Option (Token α) × Draft :=
  match d.take recognise with
  | (some token, d) => (some token, d)
  | (none, d) => (none, d.missing (.expected kind))

/-- Reports a number that is out of bounds. -/
def checkBounds (d : Draft) (number : Token Int) (bounds : Bounds) : Draft :=
  if bounds.contains number.value then d
  else d.report (.outOfBounds d.keyword bounds) number.range

/-- Converts a number that is within bounds, and reports one that is not. -/
def bounded {α : Type} (d : Draft) (number : Token Int) (bounds : Bounds)
    (convert? : Int → Option α) : Option (Token α) × Draft :=
  if bounds.contains number.value then
    ((convert? number.value).map fun value => ⟨value, number.range⟩, d)
  else (none, d.checkBounds number bounds)

/-- Ends a rule behind its last argument. Only a comment may follow; other text is the given
problem. -/
def close {α : Type} (d : Draft) (trailing : Problem) (value : α) : Outcome α :=
  match d.cursor.comment with
  | some (comment, _) => ⟨value, d.operator, some comment, d.messages⟩
  | none =>
    let d := if d.cursor.isEmpty then d else d.report trailing d.cursor.restOfText
    ⟨value, d.operator, none, d.messages⟩

/-- Ends a rule behind its last argument. -/
def finish {α : Type} (d : Draft) (value : α) : Outcome α := d.close .trailingText value

/-- Ends a rule at a missing argument. The rest of the row is not looked at. -/
def abort {α : Type} (d : Draft) (value : α) : Outcome α :=
  ⟨value, d.operator, none, d.messages⟩

end Draft

end ItemFilter
