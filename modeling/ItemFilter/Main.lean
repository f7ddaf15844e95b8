import ItemFilter.Report

/-!
# The command

Reads the environment and the files that a check needs, runs the check on them, and prints what it
says. Nothing is decided here: `Report.inputs` says which files are read, and `Exit.ofCommand` what
is printed.
-/

namespace ItemFilter.Command

open Files

/-- The number of a failure, which some operations report with its sign changed. -/
def failureNumber (code : UInt32) : Nat := min code.toNat (UInt32.size - code.toNat)

/-- What is known about a path that could not be read as a file. -/
def nodeOfFailure : IO.Error → Except FileError Node
  | .noFileOrDirectory .. => .error .notFound
  | .inappropriateType _ code _ =>
    if failureNumber code = 21 then .ok .directory else .error .notDirectory
  | .invalidArgument _ code details =>
    if failureNumber code = 36 then .error .nameTooLong else .error (.other details)
  | .permissionDenied _ code _ =>
    .error (.other s!"Permission denied (os error {failureNumber code})")
  | failure => .error (.other failure.toString)

/-- What a file with these bytes holds. -/
def contentOfBytes (bytes : ByteArray) : Content :=
  match String.fromUTF8? bytes with
  | some text => .text text
  | none => .binary

/-- What is under a path now. -/
def inspect (path : String) : IO (Except FileError Node) := do
  match ← (IO.FS.readBinFile path).toBaseIO with
  | .ok bytes => return .ok (.file (contentOfBytes bytes))
  | .error failure => return nodeOfFailure failure

/-- A disk on which only the given paths are looked at. -/
def snapshot (paths : List String) : IO Disk := do
  let found ← paths.mapM fun path => return (path, ← inspect path)
  return fun path => (found.lookup path).getD (.error .notFound)

/-- A variable as the system lists it: its name, an equals sign and its value. -/
def parseVariable (entry : List Char) : String × String :=
  (String.ofList (entry.takeWhile (· != '=')), String.ofList ((entry.dropWhile (· != '=')).drop 1))

/-- The parts of a file of the system that are separated by a character; none if it cannot be
read. -/
def systemParts (path : String) (separator : Char) : IO (List (List Char)) := do
  match ← (IO.FS.readBinFile path).toBaseIO with
  | .ok bytes => return Text.splitAtChar separator ((String.fromUTF8? bytes).getD "").toList
  | .error _ => return []

/-- The number of the user in the status of a process. -/
def userNumber? (status : List (List Char)) : Option (List Char) := do
  let line ← status.find? fun line => "Uid:".toList.isPrefixOf line
  (Text.splitAtChar '\t' line)[1]?

/-- The home directory of a user in the list of users. -/
def homeOf? (users : List (List Char)) (number : List Char) : Option String :=
  users.findSome? fun line =>
    match Text.splitAtChar ':' line with
    | [_, _, number', _, _, home, _] =>
      if number' = number then some (String.ofList home) else none
    | _ => none

/-- The environment of this process. -/
def environment : IO Environment := do
  let bindings ← systemParts "/proc/self/environ" '\x00'
  let status ← systemParts "/proc/self/status" '\n'
  let users ← systemParts "/etc/passwd" '\n'
  return ⟨bindings.map parseVariable, (userNumber? status).bind (homeOf? users)⟩

/-- The platform of this process. One thread reads all rows, so that the first refusal counts. -/
def platform : Platform := .standard 0

/-- Runs the program on the files as they are now. -/
def run (args : List String) : IO Exit := do
  let env ← environment
  let disk ← match Options.parse args with
    | .error _ => snapshot []
    | .ok options => do
      let settings ← snapshot [Report.settingsPath platform options env]
      snapshot (Report.inputs platform options env settings)
  return Exit.ofCommand platform args env disk

end ItemFilter.Command

/-- Checks the files that the command line names. -/
def main (args : List String) : IO UInt32 := do
  let exit ← ItemFilter.Command.run args
  IO.print exit.output
  IO.eprint exit.errors
  return UInt32.ofNat exit.code
