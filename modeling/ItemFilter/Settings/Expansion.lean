import ItemFilter.Text.Alphanumeric

/-!
# Expansion of paths

In the path of a data set, `$NAME` and a name in braces behind a dollar sign stand for an
environment variable, and a leading tilde for the home directory. In braces, a default may follow
the name behind `:-`. A doubled dollar sign stands for one. If a variable is not set and has no
default, nothing in the path is expanded.
-/

namespace ItemFilter

/-- What a program finds around it: the environment variables with their values, and the home
directory that the system has on record for the user. -/
structure Environment where
  bindings : List (String × String)
  recordedHome : Option String
deriving DecidableEq, Repr

namespace Environment

/-- No variables, and no record of the user. -/
def empty : Environment := ⟨[], none⟩

/-- The value of a variable. -/
def get? (env : Environment) (name : String) : Option String := env.bindings.lookup name

/-- The home directory: the one that the variables name, or else the recorded one. -/
def home? (env : Environment) : Option String :=
  ((env.get? "HOME").filter fun home => !home.isEmpty).or env.recordedHome

end Environment

namespace Expansion

/-- Whether a character may stand in the name of a variable. -/
def isNameChar (c : Char) : Bool := Text.isAlphanumeric c || c == '_'

/-- Splits a text at the first `:-`, if there is one. -/
def splitDefault? : List Char → Option (List Char × List Char)
  | ':' :: '-' :: cs => some ([], cs)
  | c :: cs => (splitDefault? cs).map fun (name, value) => (c :: name, value)
  | [] => none

/-- The name and the default in braces. A default needs a name in front of it. -/
def splitReference (inner : List Char) : List Char × Option (List Char) :=
  match splitDefault? inner with
  | none | some ([], _) => (inner, none)
  | some (name, value) => (name, some value)

/-- What a reference in braces stands for. -/
def reference? (env : Environment) (inner : List Char) : Option (List Char) :=
  let (name, value) := splitReference inner
  ((env.get? (String.ofList name)).map String.toList).or value

/-- The text with all its variables replaced, or nothing if a variable is not set and has no
default. -/
def variables? (env : Environment) (cs : List Char) : Option (List Char) :=
  match cs with
  | [] => some []
  | '$' :: '{' :: rest =>
    let inner := rest.takeWhile (· != '}')
    if inner.length = rest.length then (variables? env rest).map fun out => '$' :: '{' :: out
    else do
      let value ← reference? env inner
      let out ← variables? env (rest.drop (inner.length + 1))
      some (value ++ out)
  | '$' :: '$' :: rest => (variables? env rest).map ('$' :: ·)
  | '$' :: rest =>
    let name := rest.takeWhile isNameChar
    if name.isEmpty then (variables? env rest).map ('$' :: ·)
    else do
      let value ← env.get? (String.ofList name)
      let out ← variables? env (rest.drop name.length)
      some (value.toList ++ out)
  | c :: rest => (variables? env rest).map (c :: ·)
termination_by cs.length

/-- Replaces a leading tilde that is the whole text or followed by a slash by the home directory. -/
def tilde (env : Environment) (text : String) : String :=
  match text.toList with
  | '~' :: rest =>
    if rest.isEmpty || rest.head? == some '/' then
      match env.home? with
      | some home => home ++ String.ofList rest
      | none => text
    else text
  | _ => text

/-- Whether a text starts with a tilde. -/
def startsWithTilde (text : String) : Bool := text.toList.head? == some '~'

/-- The expansion of a path, or nothing if a variable is not set and has no default. A tilde that
comes out of a variable stays. -/
def expand? (env : Environment) (path : String) : Option String :=
  (variables? env path.toList).map fun out =>
    let text := String.ofList out
    if startsWithTilde text && !startsWithTilde path then text else tilde env text

end Expansion

end ItemFilter
