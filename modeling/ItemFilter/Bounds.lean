/-!
# Bounds of numeric arguments

The values that a numeric argument may take: all integers between two ends, or the members of a
list.
-/

namespace ItemFilter

/-- The accepted values of a numeric argument. -/
inductive Bounds where
  /-- Every integer from the least to the greatest, both included. -/
  | between (least greatest : Int)
  /-- The listed integers and no other. -/
  | oneOf (values : List Int)
deriving DecidableEq, Repr

namespace Bounds

/-- Whether an integer is accepted. -/
def contains : Bounds → Int → Bool
  | between least greatest, n => least ≤ n && n ≤ greatest
  | oneOf values, n => values.elem n

/-- The accepted values in words. -/
def describe : Bounds → String
  | between least greatest => s!"{least} to {greatest}"
  | oneOf values =>
    match values.getLast?, values.dropLast with
    | none, _ => "nothing"
    | some last, [] => toString last
    | some last, first => ", ".intercalate (first.map toString) ++ s!" or {last}"

/-- Item levels and drop levels. -/
def level : Bounds := between 0 200

/-- Quality in percent. -/
def quality : Bounds := between 0 100

/-- Numbers of sockets. -/
def sockets : Bounds := between 0 6

/-- Numbers of linked sockets; a link takes at least two. -/
def linkedSockets : Bounds := oneOf [0, 2, 3, 4, 5, 6]

/-- Heights of an item in inventory cells. -/
def height : Bounds := between 1 4

/-- Widths of an item in inventory cells. -/
def width : Bounds := between 1 2

/-- Font sizes. -/
def fontSize : Bounds := between 18 45

/-- Values of a colour channel. -/
def channel : Bounds := between 0 255

/-- Numbers of the built-in alert sounds. -/
def soundNumber : Bounds := between 1 16

/-- Volumes of an alert sound. -/
def volume : Bounds := between 0 300

end Bounds

end ItemFilter
