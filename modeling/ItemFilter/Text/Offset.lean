/-!
# Byte offsets

Edits and spans are given in bytes of the UTF-8 form of a text. A byte offset that falls between
two characters splits the text in two; any other offset does not name a place in the text.
-/

namespace ItemFilter.Text

/-- The number of bytes of a text in UTF-8. -/
def byteLength : List Char → Nat
  | [] => 0
  | c :: cs => c.utf8Size + byteLength cs

/-- The two parts of a text around a byte offset, or nothing if the offset lies inside a character
or past the end. -/
def splitAtByte? : Nat → List Char → Option (List Char × List Char)
  | 0, cs => some ([], cs)
  | _ + 1, [] => none
  | n + 1, c :: cs =>
    if n + 1 < c.utf8Size then none
    else (splitAtByte? (n + 1 - c.utf8Size) cs).map fun (before, after) => (c :: before, after)

end ItemFilter.Text
