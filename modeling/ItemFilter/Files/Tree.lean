import ItemFilter.Files.Error
import ItemFilter.Files.Path

/-!
# File trees

A file system as a value: which files and directories there are, and what the files hold. Looking up
a path follows its names from the working directory or the root. A `Disk` is all that a program sees
which only reads: what is found under each path.
-/

namespace ItemFilter.Files

/-- What a file holds. -/
inductive Content where
  | text (text : String)
  /-- Bytes that are not UTF-8. -/
  | binary
deriving DecidableEq, Repr

/-- What is found under a path. -/
inductive Node where
  | directory
  | file (content : Content)
deriving DecidableEq, Repr

/-- What is found under each path, or why nothing is. -/
abbrev Disk := String → Except FileError Node

namespace Disk

/-- Whether there is something under a path. -/
def contains (disk : Disk) (path : String) : Bool := (disk path).toOption.isSome

/-- The text of the file under a path. -/
def read (disk : Disk) (path : String) : Except FileError String :=
  match disk path with
  | .error e => .error e
  | .ok .directory => .error .isDirectory
  | .ok (.file .binary) => .error .notText
  | .ok (.file (.text text)) => .ok text

end Disk

/-- A file system. Places are given by the names on the way from the root. -/
structure Tree where
  /-- The files and directories besides the root. -/
  nodes : List (List String × Node)
  /-- The place at which relative paths start. -/
  workingDirectory : List String
deriving DecidableEq, Repr

namespace Tree

/-- What is at a place. -/
def get? (t : Tree) (place : List String) : Option Node :=
  if place.isEmpty then some .directory else t.nodes.lookup place

/-- Puts something at a place. -/
def put (t : Tree) (place : List String) (node : Node) : Tree :=
  { t with nodes := (place, node) :: t.nodes.filter fun (p, _) => p != place }

/-- The longest name of a file, in bytes. -/
def maxNameLength : Nat := 255

/-- The longest path, in bytes, with one byte for its end. -/
def maxPathLength : Nat := 4096

/-- Goes on from a place by one name; the place has to be a directory. -/
def enter (t : Tree) (place : List String) (name : String) : Except FileError (List String) :=
  match t.get? place with
  | none => .error .notFound
  | some (.file _) => .error .notDirectory
  | some .directory =>
    if name = "." then .ok place
    else if name = ".." then .ok place.dropLast
    else if name.utf8ByteSize > maxNameLength then .error .nameTooLong
    else if (t.get? (place ++ [name])).isNone then .error .notFound
    else .ok (place ++ [name])

/-- Follows names from a place. -/
def walk (t : Tree) (place : List String) (names : List String) : Except FileError (List String) :=
  names.foldlM t.enter place

/-- Where a path starts. -/
def origin (t : Tree) (isAbsolute : Bool) : List String :=
  if isAbsolute then [] else t.workingDirectory

/-- Whether a text holds a null character. -/
def hasNull (text : String) : Bool := text.toList.any fun c => c.toNat == 0

/-- Refuses texts that are no paths. -/
def checkPath (path : String) : Except FileError Unit :=
  if hasNull path then .error .nullCharacter
  else if path.isEmpty then .error .notFound
  else if path.utf8ByteSize ≥ maxPathLength then .error .nameTooLong
  else .ok ()

/-- The place of a path. A path that ends with a slash names a directory. -/
def locate (t : Tree) (path : String) : Except FileError (List String) := do
  checkPath path
  let names := Path.names path ++ if Path.hasTrailingSlash path then ["."] else []
  t.walk (t.origin (Path.isAbsolute path)) names

/-- What is found under a path. -/
def lookup (t : Tree) (path : String) : Except FileError Node := do
  let place ← t.locate path
  match t.get? place with
  | none => .error .notFound
  | some node => .ok node

/-- The tree as a disk. -/
def disk (t : Tree) : Disk := t.lookup

/-- Makes a directory. The directory that is to hold it has to exist. -/
def makeDirectory (t : Tree) (path : Components) : Except FileError Tree :=
  match path.names.getLast? with
  | none => .error .alreadyExists
  | some name =>
    if path.names.any hasNull then .error .nullCharacter
    else do
      let place ← t.walk (t.origin path.isAbsolute) path.names.dropLast
      match t.enter place name with
      | .ok _ => .error .alreadyExists
      | .error .notFound => .ok (t.put (place ++ [name]) .directory)
      | .error e => .error e

/-- Whether a path leads to a directory. -/
def isDirectory (t : Tree) (path : Components) : Bool :=
  match t.walk (t.origin path.isAbsolute) path.names with
  | .error _ => false
  | .ok place => t.get? place = some .directory

/-- Makes a directory unless it is there already. -/
def ensureDirectory (t : Tree) (path : Components) : Except FileError Tree :=
  match t.makeDirectory path with
  | .error .alreadyExists => if t.isDirectory path then .ok t else .error .alreadyExists
  | result => result

/-- Makes a directory and all directories on the way to it, as far as they are missing. -/
def makeDirectories (t : Tree) (isAbsolute : Bool) (names : List String) :
    Except FileError Tree :=
  if _h : names = [] then .ok t
  else
    match t.ensureDirectory ⟨isAbsolute, names⟩ with
    | .error .notFound => do
      let t ← makeDirectories t isAbsolute names.dropLast
      t.ensureDirectory ⟨isAbsolute, names⟩
    | result => result
termination_by names.length
decreasing_by
  have := List.length_pos_iff.2 _h
  simp only [List.length_dropLast]
  omega

/-- Writes a file, whether it exists or not. The directory that is to hold it has to exist. -/
def write (t : Tree) (path : String) (text : String) : Except FileError Tree := do
  checkPath path
  let names := Path.names path
  match names.getLast? with
  | none => .error .isDirectory
  | some name =>
    let place ← t.walk (t.origin (Path.isAbsolute path)) (names.dropLast ++ ["."])
    if name = "." ∨ name = ".." ∨ Path.hasTrailingSlash path then .error .isDirectory
    else
      match t.enter place name with
      | .ok place =>
        if t.get? place = some .directory then .error .isDirectory
        else .ok (t.put place (.file (.text text)))
      | .error .notFound => .ok (t.put (place ++ [name]) (.file (.text text)))
      | .error e => .error e

end Tree

end ItemFilter.Files
