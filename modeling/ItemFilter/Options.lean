/-!
# Command-line options

Arguments are read from left to right. The argument behind `--config` is a path, whatever it looks
like; any other argument that starts with two hyphens has to be an option, and all the rest are the
files to check.
-/

namespace ItemFilter

/-- What the command line asks for. -/
structure Options where
  /-- The path of the settings, if they are not the user's own. -/
  config : Option String
  /-- Whether warnings make the check fail. -/
  warningsAsErrors : Bool
  /-- The files to check, in order. -/
  files : List String
deriving DecidableEq, Repr

/-- Why a command line cannot be understood. -/
inductive UsageError where
  /-- No path follows `--config`. -/
  | missingConfigPath
  /-- An argument looks like an option but is none. -/
  | unknownOption (flag : String)
  /-- There is no file to check. -/
  | noFiles
deriving DecidableEq, Repr

namespace UsageError

/-- The text of a misused command line. -/
def message : UsageError → String
  | missingConfigPath => "--config needs a path"
  | unknownOption flag => s!"unknown option {flag}"
  | noFiles => "no filter files given"

end UsageError

namespace Options

/-- How the command is used. -/
def usage : String := "Usage: filter-lint [--config <path>] [--warnings-as-errors] <file>..."

/-- The options before any argument is read. -/
def none : Options := ⟨.none, false, []⟩

/-- Whether an argument looks like an option. -/
def isFlag (arg : String) : Bool := "--".toList.isPrefixOf arg.toList

/-- Reads arguments on top of those read so far. -/
def collect (options : Options) : List String → Except UsageError Options
  | [] => .ok options
  | arg :: args =>
    if arg = "--config" then
      match args with
      | [] => .error .missingConfigPath
      | path :: args => collect { options with config := some path } args
    else if arg = "--warnings-as-errors" then
      collect { options with warningsAsErrors := true } args
    else if isFlag arg then .error (.unknownOption arg)
    else collect { options with files := options.files ++ [arg] } args

/-- Reads a command line. -/
def parse (args : List String) : Except UsageError Options := do
  let options ← collect none args
  if options.files.isEmpty then .error .noFiles else pure options

end Options

end ItemFilter
