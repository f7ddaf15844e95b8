import ItemFilter.Toml.Fault
import ItemFilter.Toml.Scalar
import ItemFilter.Toml.Written

/-!
# Reading TOML

`Toml.parse` reads a document of TOML 1.1 and answers its entries, or a fault. The outline comes
first, so a fault in it is found before any other. Then the statements are read in order, and the
first fault counts: within a statement the keys are read before the value, and the rules for tables
come last.
-/

namespace ItemFilter.Toml

/-- Whether a character may stand in a bare key. -/
def isBareKey (c : Char) : Bool := c.isAlphanum || c == '_' || c == '-'

/-- The key that a text stands for: a string on one line, or a bare key. -/
def keyOf? (text : List Char) : Option String :=
  match text with
  | '"' :: _ | '\'' :: _ => stringContent? text
  | text => if !text.isEmpty && text.all isBareKey then some (String.ofList text) else none

/-- The keys of a dotted key. -/
def pathOf (key : WrittenKey) : Except Fault (List String) := do
  let path ← expect (key.mapM keyOf?)
  if maxDepth < path.length then .error .deepKey else .ok path

mutual

/-- The value that a text stands for. -/
def Written.value : Written → Except Fault Value
  | .scalar text => expect (scalarValue? text)
  | .array items => (Written.values items).map .array
  | .table pairs => (Written.entries [] pairs).map (.table .inline)

/-- The values of the items of an array. -/
def Written.values : List Written → Except Fault (List Value)
  | [] => .ok []
  | item :: items => do
    let value ← item.value
    let values ← Written.values items
    .ok (value :: values)

/-- The entries of an inline table: those that are given, and those of the pairs. -/
def Written.entries (entries : Entries) : List (WrittenKey × Written) → Except Fault Entries
  | [] => .ok entries
  | (key, item) :: pairs => do
    let path ← pathOf key
    let value ← item.value
    let entries ← expect (Entries.assign path value .inline entries)
    Written.entries entries pairs

end

/-- The statement that is written. -/
def readStatement : WrittenStatement → Except Fault (Statement (List String) Value)
  | .assign key value => do .ok (.assign (← pathOf key) (← value.value))
  | .table key => do .ok (.table (← pathOf key))
  | .tables key => do .ok (.tables (← pathOf key))

/-- Adds a statement as it is written. -/
def Builder.read (b : Builder) (written : WrittenStatement) : Except Fault Builder := do
  let statement ← readStatement written
  expect (b.add? statement)

/-- The entries of a document. -/
def parse (text : String) : Except Fault Entries := do
  let statements ← expect (outline? text)
  let builder ← statements.foldlM Builder.read .empty
  .ok builder.entries

end ItemFilter.Toml
