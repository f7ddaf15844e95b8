/-!
# Failures of file operations

Why a file cannot be read or written. The texts are those of the operating system.
-/

namespace ItemFilter.Files

/-- Why a file operation failed. -/
inductive FileError where
  /-- There is nothing under this path. -/
  | notFound
  /-- There is something under this path already. -/
  | alreadyExists
  /-- A file is used as a directory. -/
  | notDirectory
  /-- A directory is used as a file. -/
  | isDirectory
  /-- A name in the path, or the path, is too long. -/
  | nameTooLong
  /-- The path holds a null character. -/
  | nullCharacter
  /-- The content of a file is not UTF-8. -/
  | notText
  /-- Any other failure that the system reports. -/
  | other (text : String)
deriving DecidableEq, Repr

namespace FileError

/-- The text of a failure. -/
def message : FileError → String
  | notFound => "No such file or directory (os error 2)"
  | alreadyExists => "File exists (os error 17)"
  | notDirectory => "Not a directory (os error 20)"
  | isDirectory => "Is a directory (os error 21)"
  | nameTooLong => "File name too long (os error 36)"
  | nullCharacter => "file name contained an unexpected NUL byte"
  | notText => "stream did not contain valid UTF-8"
  | other text => text

end FileError

end ItemFilter.Files
