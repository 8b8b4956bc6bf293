import Imageboard.CommandLine.Run
import Std.Time.DateTime.Timestamp

/-!
# The program

Reads the files that a command works on, runs the command, and writes what it changed.
-/

namespace Imageboard

open CommandLine

/-- The present time. -/
def presentMoment : IO Moment := do
  let now ← Std.Time.Timestamp.now
  return Moment.ofEpoch now.toSecondsSinceUnixEpoch.val

/-- The text of the file at a path, if it can be read. -/
def readIfPresent (path : String) : IO (Option String) := do
  try
    return some (← IO.FS.readFile path)
  catch _ => return none

/-- The files at some paths, as far as they can be read. -/
def readFiles : List String → IO Files
  | [] => return ⟨[]⟩
  | path :: rest => do
    let files ← readFiles rest
    match ← readIfPresent path with
    | some text => return files.put path text
    | none => return files

/-- The directory that a path leads into. -/
def directoryOf (path : String) : String :=
  String.ofList ((path.toList.reverse.dropWhile (· ≠ '/')).drop 1).reverse

/-- Writes a file, and makes its directory if there is none. -/
def writeWithDirectory (path text : String) : IO Unit := do
  let directory := directoryOf path
  if !directory.isEmpty then IO.FS.createDirAll directory
  IO.FS.writeFile path text

/-- Writes the files that were changed. -/
def writeChanged (before after : Files) : IO Unit := do
  for (path, text) in after.entries do
    if before.find? path ≠ some text then writeWithDirectory path text

/-- What is said when the arguments are wrong or help is asked for. -/
def usage : String :=
  "usage: imageboard init|import-posts|search|count|explain|bulk|health --db FILE ..."

/-- Ends the program. -/
def conclude : Ending → IO UInt32
  | .exit code => return code.toUInt32
  | .done => return 0
  | .refused .help => do
    IO.println usage
    return 0
  | .refused .usage => do
    IO.eprintln usage
    return 2
  | .failed cause => do
    IO.eprintln cause.message
    return 1

end Imageboard

open Imageboard in
/-- Runs the program. -/
def main (args : List String) : IO UInt32 := do
  let paths := match CommandLine.commandOf args with
    | .ok (command, _) => command.inputs.map CommandLine.tidyPath
    | .error _ => []
  let files ← readFiles paths
  let outcome := CommandLine.run files (← presentMoment) args
  IO.print outcome.printed
  IO.eprint outcome.reported
  writeChanged files outcome.files
  conclude outcome.ending
