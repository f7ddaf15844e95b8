import ItemFilter.Text.Decimal
import ItemFilter.Toml.Quoted
import ItemFilter.Toml.Table

/-!
# TOML numbers, truth values and dates

The values that are written as one word. A word that has the shape of a number is a number, also if
it is too large or turns out to have no digits of its base. The numbers that can be read are the
integers of 128 bits, and the floating-point numbers that are finite or say that they are not.
-/

namespace ItemFilter.Toml

/-- Whether the underscores of a text stand between digits. A digit comes next, and one comes before
unless `isFree` says that what comes before does not matter. -/
def separatesDigits (isDigit : Char → Bool) : Bool → List Char → Bool
  | _, [] => true
  | isFree, c :: cs =>
    if c = '_' then isFree && cs.head?.any isDigit && separatesDigits isDigit false cs
    else separatesDigits isDigit (isDigit c) cs

/-- Whether the underscores of a number stand between digits. Its first character is a digit or a
sign, and counts as a digit either way. -/
def isGrouped (isDigit : Char → Bool) : List Char → Bool
  | [] => true
  | c :: cs => c != '_' && separatesDigits isDigit true cs

/-- The text of a number without its underscores. -/
def ungrouped (cs : List Char) : List Char := cs.filter (· != '_')

/-- The value of one or more digits, if each of them is a digit of the base. -/
def inBase? (base : Nat) (cs : List Char) : Option Nat := do
  let digits ← cs.mapM hexDigit?
  if !digits.isEmpty && digits.all (· < base) then
    some (digits.foldl (fun n d => base * n + d) 0)
  else none

/-- The sign in front of a number, if there is one, and the rest. -/
def splitSign : List Char → Int × List Char
  | '-' :: cs => (-1, cs)
  | '+' :: cs => (1, cs)
  | cs => (1, cs)

/-- Whether an integer fits 128 bits, with a sign or without. -/
def isStorable (n : Int) : Bool :=
  -0x80000000000000000000000000000000 ≤ n && n < 0x100000000000000000000000000000000

/-- The integer in a base that a text with an optional sign stands for. -/
def integerOf (base : Nat) (cs : List Char) : Value :=
  let (sign, digits) := splitSign (ungrouped cs)
  .integer (((inBase? base digits).map fun n => sign * (n : Int)).filter isStorable)

/-- Whether a character is a hexadecimal digit. -/
def isHexDigit (c : Char) : Bool := (hexDigit? c).isSome

/-- An integer with the mark of its base in front, given what follows the mark. -/
def basedInteger? (base : Nat) (cs : List Char) : Option Value :=
  let isDigit (c : Char) : Bool := (hexDigit? c).any (· < base)
  if cs.all (fun c => c = '_' || isDigit c) && isGrouped isHexDigit cs then
    some (integerOf base cs)
  else none

/-- A decimal integer, given by the whole word and by the word without its sign, which has no
leading zero. -/
def decimalInteger? (word body : List Char) : Option Value :=
  if (body.length = 1 || body.head? != some '0') && isGrouped isHexDigit word then
    some (integerOf 10 word)
  else none

/-- Whether `digits · 10 ^ exponent` rounds to a finite number of double precision: whether it lies
below the middle between the greatest such number and the next power of two. -/
def isFinite (digits : List Char) (exponent : Int) : Bool :=
  let mantissa := Text.digitsValue digits
  let limit := Nat.pow 2 1024 - Nat.pow 2 970
  if mantissa = 0 ∨ exponent + digits.length ≤ 308 then true
  else if exponent ≥ 309 then false
  else if exponent ≥ 0 then mantissa * Nat.pow 10 exponent.toNat < limit
  else mantissa < limit * Nat.pow 10 (-exponent).toNat

/-- Splits a word at the first character of a kind; the second part is without it. -/
def splitAtFirst (p : Char → Bool) (cs : List Char) : List Char × Option (List Char) :=
  let before := cs.takeWhile fun c => !p c
  (before, match cs.drop before.length with
    | [] => none
    | _ :: after => some after)

/-- Whether a text consists of digits and underscores, with one digit at least. -/
def isDigitRun (cs : List Char) : Bool :=
  cs.all (fun c => c.isDigit || c == '_') && cs.any Char.isDigit

/-- A floating-point number, given by the whole word and by the word without its sign. Before the
point or the exponent there is no leading zero. -/
def float? (word body : List Char) : Option Value :=
  let (mantissa, exponent) := splitAtFirst (fun c => c == 'e' || c == 'E') body
  let (whole, fraction) := splitAtFirst (· == '.') mantissa
  let (sign, exponentDigits) := splitSign (exponent.getD ['0'])
  let fractionDigits := ungrouped (fraction.getD [])
  let value : Int := sign * (Text.digitsValue (ungrouped exponentDigits) : Int)
  if isDigitRun whole && ((ungrouped whole).length = 1 || whole.head? != some '0') &&
      fraction.all isDigitRun && isDigitRun exponentDigits && isGrouped Char.isDigit word then
    some (.float (String.ofList (ungrouped word))
      (isFinite (ungrouped whole ++ fractionDigits) (value - fractionDigits.length)))
  else none

/-- The number written with exactly `count` digits. -/
def fixed? (count : Nat) (cs : List Char) : Option Nat :=
  if cs.length = count then Text.natural? cs else none

/-- The number of days of a month. -/
def daysIn (year month : Nat) : Nat :=
  if month = 2 then if year % 4 = 0 ∧ (year % 100 ≠ 0 ∨ year % 400 = 0) then 29 else 28
  else if month = 4 ∨ month = 6 ∨ month = 9 ∨ month = 11 then 30
  else 31

/-- Whether a word is a date `YYYY-MM-DD`. -/
def isDate : List Char → Bool
  | [a, b, c, d, '-', e, f, '-', g, h] =>
    match fixed? 4 [a, b, c, d], fixed? 2 [e, f], fixed? 2 [g, h] with
    | some year, some month, some day =>
      1 ≤ month && month ≤ 12 && 1 ≤ day && day ≤ daysIn year month
    | _, _, _ => false
  | _ => false

/-- Whether a word is an hour and a minute `HH:MM`. -/
def isHourMinute : List Char → Bool
  | [a, b, ':', c, d] =>
    match fixed? 2 [a, b], fixed? 2 [c, d] with
    | some hour, some minute => hour ≤ 23 && minute ≤ 59
    | _, _ => false
  | _ => false

/-- Whether a text is the second of a time, `:SS`, with an optional fraction. -/
def isSecond : List Char → Bool
  | ':' :: a :: b :: fraction =>
    (fixed? 2 [a, b]).any (fun second => decide (second ≤ 60)) &&
      match fraction with
      | [] => true
      | '.' :: ds => (Text.natural? ds).isSome
      | _ => false
  | _ => false

/-- Whether a word is a time `HH:MM`, or one with a second. -/
def isTime (cs : List Char) : Bool :=
  isHourMinute (cs.take 5) && ((cs.drop 5).isEmpty || isSecond (cs.drop 5))

/-- Whether a word is a time with an optional offset from universal time. -/
def isOffsetTime (cs : List Char) : Bool :=
  let (time, _) := splitAtFirst (fun c => c == 'Z' || c == 'z' || c == '+' || c == '-') cs
  let offset := cs.drop time.length
  isTime time &&
    match offset with
    | [] | ['Z'] | ['z'] => true
    | '+' :: hm | '-' :: hm => isHourMinute hm
    | _ => false

/-- Whether a text is a date, a time, or a date and a time. -/
def isMoment (cs : List Char) : Bool :=
  isDate cs || isTime cs ||
    match cs.drop 10 with
    | c :: time => (c == 'T' || c == 't' || c == ' ') && isDate (cs.take 10) && isOffsetTime time
    | [] => false

/-- The number or the moment that a word denotes. -/
def number? (word : List Char) : Option Value :=
  let (_, body) := splitSign word
  match body.dropWhile Char.isDigit with
  | [] => if body.isEmpty then none else decimalInteger? word body
  | '-' :: _ | ':' :: _ => if isMoment word then some (.moment (String.ofList word)) else none
  | c :: rest =>
    if (c :: rest).elem ' ' then none
    else if (c :: rest).any fun c => c == '.' || c == 'e' || c == 'E' then float? word body
    else if c = '_' then decimalInteger? word body
    else none

/-- Whether a word stands for infinity or for what is not a number, with an optional sign. -/
def isSpecialFloat (word : List Char) : Bool :=
  let (_, body) := splitSign word
  body = "inf".toList || body = "nan".toList

/-- The value that a word denotes. -/
def wordValue? (word : List Char) : Option Value :=
  if word = "true".toList then some (.boolean true)
  else if word = "false".toList then some (.boolean false)
  else if isSpecialFloat word then some (.float (String.ofList word) true)
  else
    match word with
    | '0' :: 'x' :: cs => basedInteger? 16 cs
    | '0' :: 'o' :: cs => basedInteger? 8 cs
    | '0' :: 'b' :: cs => basedInteger? 2 cs
    | word => number? word

/-- The value of a string or a word. -/
def scalarValue? (text : List Char) : Option Value :=
  match text with
  | '"' :: _ | '\'' :: _ => (stringContent? text).map .string
  | word => wordValue? word

end ItemFilter.Toml
