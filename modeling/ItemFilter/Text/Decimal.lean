/-!
# Signed decimal numerals

An optional sign followed by one or more ASCII digits denotes an integer. Stored numbers have 64
bits, so an integer beyond that range is replaced by the nearest end of the range.
-/

namespace ItemFilter.Text

/-- The value of a run of digits, read from the left. -/
def digitsValue (ds : List Char) : Nat :=
  ds.foldl (fun n d => 10 * n + (d.toNat - '0'.toNat)) 0

/-- The natural number denoted by a non-empty run of ASCII digits. -/
def natural? (ds : List Char) : Option Nat :=
  if !ds.isEmpty && ds.all Char.isDigit then some (digitsValue ds) else none

/-- The integer denoted by an optional sign and one or more ASCII digits. -/
def integer? : List Char → Option Int
  | '-' :: ds => (natural? ds).map fun (n : Nat) => -(n : Int)
  | '+' :: ds => (natural? ds).map Int.ofNat
  | ds => (natural? ds).map Int.ofNat

/-- The least and the greatest integer that a number token can hold. -/
def int64Min : Int := -0x8000000000000000

@[inherit_doc int64Min]
def int64Max : Int := 0x7FFFFFFFFFFFFFFF

/-- The integer of the 64-bit range that is nearest to `n`. -/
def clampInt64 (n : Int) : Int := max int64Min (min n int64Max)

end ItemFilter.Text
