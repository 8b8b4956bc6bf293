import Imageboard.Store.Archive
import Imageboard.Store.Maintenance

/-!
# Files

The files that commands work on, as texts by path. A store is kept in a file as its archive.
-/

namespace Imageboard.CommandLine

/-- Texts by path. -/
structure Files where
  entries : List (String × String)
  deriving DecidableEq, Repr

/-- A path without empty parts and without parts that stay where they are. -/
def tidyPath (path : String) : String :=
  let parts := (path.splitOn "/").filter fun part => part ≠ "" ∧ part ≠ "."
  let tidy := "/".intercalate parts
  if path.startsWith "/" then "/" ++ tidy else if tidy.isEmpty then "." else tidy

/-- The path of a file in a directory. -/
def joinPath (directory name : String) : String :=
  tidyPath (directory ++ "/" ++ name)

namespace Files

/-- The text of the file at a path. -/
def find? (fs : Files) (path : String) : Option String :=
  (fs.entries.find? (·.1 = path)).map (·.2)

/-- Writes a text to a path. -/
def put (fs : Files) (path text : String) : Files :=
  ⟨(path, text) :: fs.entries.filter (·.1 ≠ path)⟩

/-- The contents of a board that is made anew; if its categories cannot be listed it has none. -/
def newContents (categories : Categories) : Contents × Option Failure :=
  match Contents.initial categories with
  | .ok c => (c, none)
  | .error e => (Contents.empty, some e)

/-- Opens the store at a path, which is made if there is none. -/
def openStore (fs : Files) (path : String) (categories : Categories) (clock : Moment) :
    Except Failure Store × Files :=
  match fs.find? path with
  | some text =>
    match Contents.ofArchive? text with
    | some c => (.ok (.ofContents c.withAllTables clock categories), fs)
    | none => (.error (.store .notAStore), fs)
  | none =>
    let (c, failed) := newContents categories
    (match failed with
      | some e => .error e
      | none => .ok (.ofContents c clock categories), fs.put path c.archive)

/-- Closes a store: what was committed is kept. -/
def closeStore (fs : Files) (path : String) (s : Store) : Files :=
  fs.put path s.committed.archive

end Files

end Imageboard.CommandLine
