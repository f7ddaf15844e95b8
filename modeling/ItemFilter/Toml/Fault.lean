/-!
# Faults of TOML documents
-/

namespace ItemFilter.Toml

/-- Why a text is not a document, or not one of the expected shape. -/
inductive Fault where
  /-- Something in the text does not follow the rules. -/
  | malformed
  /-- A dotted key has too many keys. -/
  | deepKey
deriving DecidableEq, Repr

/-- The text of a fault. -/
def Fault.message : Fault → String
  | malformed => "TOML parse error"
  | deepKey => "recursion limit\n"

/-- The value, or else the fault that something does not follow the rules. -/
def expect {α : Type} : Option α → Except Fault α
  | some a => .ok a
  | none => .error .malformed

end ItemFilter.Toml
