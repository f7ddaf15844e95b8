import ItemFilter.Text.Blank

/-!
# Rows

A text is a sequence of rows. A row ends at a line feed, at a carriage return, or at the two in
this order, which count as one terminator. What follows the last terminator is a row too, so there
is always one row more than there are terminators.
-/

namespace ItemFilter

/-- The rows of a text, without their terminators. -/
def rows : List Char → List (List Char)
  | [] => [[]]
  | '\r' :: '\n' :: cs => [] :: rows cs
  | c :: cs =>
    if Text.isLineBreak c then [] :: rows cs
    else match rows cs with
      | [] => [[c]]
      | row :: below => (c :: row) :: below

/-- The rows of a text. -/
def splitRows (text : String) : List String := (rows text.toList).map String.ofList

/-- The number of row terminators in a text: line feeds, and carriage returns that no line feed
follows. -/
def terminators : List Char → Nat
  | [] => 0
  | '\n' :: cs => terminators cs + 1
  | '\r' :: cs => terminators cs + if cs.head? = some '\n' then 0 else 1
  | _ :: cs => terminators cs

end ItemFilter
