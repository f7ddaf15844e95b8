import ItemFilter.Text.Split

/-!
# Paths

A path is a text; names are divided by slashes. Two paths are the same if they have the same
components: repeated and trailing slashes do not count, and neither does a dot in place of a name
except at the very start.
-/

namespace ItemFilter.Files

/-- The components of a path. -/
structure Components where
  /-- Whether the path starts at the root. -/
  isAbsolute : Bool
  names : List String
deriving DecidableEq, Repr

namespace Path

/-- The names of a path in order, including dots. -/
def names (path : String) : List String :=
  ((Text.splitAtChar '/' path.toList).filter fun name => !name.isEmpty).map String.ofList

/-- Whether a path starts at the root. -/
def isAbsolute (path : String) : Bool := path.toList.head? == some '/'

/-- Whether a path ends with a slash. -/
def hasTrailingSlash (path : String) : Bool := path.toList.getLast? == some '/'

/-- The components of a path. -/
def components (path : String) : Components :=
  let all := names path
  { isAbsolute := isAbsolute path
    names := match all with
      | [] => []
      | first :: more =>
        let more := more.filter (· != ".")
        if first == "." && isAbsolute path then more else first :: more }

/-- The components of a path without the last one, if there is one. -/
def parent? (path : String) : Option Components :=
  let cs := components path
  if cs.names.isEmpty then none else some { cs with names := cs.names.dropLast }

/-- A path followed by a name. -/
def join (directory name : String) : String :=
  if directory.isEmpty || hasTrailingSlash directory then directory ++ name
  else directory ++ "/" ++ name

end Path

end ItemFilter.Files
