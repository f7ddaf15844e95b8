/-!
# Splitting a text at a character
-/

namespace ItemFilter.Text

/-- The parts of a text between the occurrences of a character. There is one part more than there
are occurrences. -/
def splitAtChar (separator : Char) : List Char → List (List Char)
  | [] => [[]]
  | c :: cs =>
    if c = separator then [] :: splitAtChar separator cs
    else match splitAtChar separator cs with
      | [] => [[c]]
      | part :: parts => (c :: part) :: parts

end ItemFilter.Text
