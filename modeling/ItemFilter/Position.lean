/-!
# Positions in a filter

Rows and columns count from zero, and columns count characters. A range holds its start and ends
before its stop. A token is a value together with the range of the text that it was read from.
-/

namespace ItemFilter

/-- A place in a text, given by its row and its column. -/
structure Point where
  row : Nat
  column : Nat
deriving DecidableEq, Repr

namespace Point

/-- Places are ordered by row, then by column. -/
instance : LE Point where
  le p q := p.row < q.row ∨ p.row = q.row ∧ p.column ≤ q.column

instance (p q : Point) : Decidable (p ≤ q) :=
  inferInstanceAs (Decidable (p.row < q.row ∨ p.row = q.row ∧ p.column ≤ q.column))

end Point

/-- A stretch of text from `start`, included, to `stop`, excluded. -/
structure Range where
  start : Point
  stop : Point
deriving DecidableEq, Repr

namespace Range

/-- The range between two columns of one row. -/
def onRow (row start stop : Nat) : Range := ⟨⟨row, start⟩, ⟨row, stop⟩⟩

/-- Whether a range holds no character: it does not start before it stops. -/
def isEmpty (r : Range) : Bool := r.stop ≤ r.start

end Range

/-- A value with the range of the text that it was read from. -/
structure Token (α : Type) where
  value : α
  range : Range
deriving DecidableEq, Repr

namespace Token

/-- Replaces the value of a token and keeps its range. -/
def map {α β : Type} (f : α → β) (t : Token α) : Token β := ⟨f t.value, t.range⟩

end Token

end ItemFilter
