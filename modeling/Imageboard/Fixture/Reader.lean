import Imageboard.Failure
import Imageboard.Fixture.Row
import Imageboard.Json.Reader
import Imageboard.Text.Separated

/-!
# Reading fixtures

A fixture is a file of separated values with a header, or of structured data: a list of objects or a
single one. The ending of its name tells which. Columns that are not known are passed over, cells
that cannot be read are taken as empty, but the column of the tags must be there.
-/

namespace Imageboard.Fixture

/-- How a fixture is written. -/
inductive Format where
  | separated
  | structured
  deriving DecidableEq, Repr

namespace Format

/-- The name of a format. -/
def name : Format → String
  | .separated => "CSV"
  | .structured => "JSON"

/-- The ending of the name of a file, with its dot: what follows the last dot, unless that is the
first or the last character. -/
def ending (fileName : List Char) : List Char :=
  let last := (fileName.reverse.takeWhile (· ≠ '.')).reverse
  if last.isEmpty || last.length + 1 ≥ fileName.length then [] else '.' :: last

/-- The name of the file that a path leads to. -/
def fileName (path : List Char) : List Char :=
  (path.reverse.takeWhile (· ≠ '/')).reverse

/-- The format of the file at a path. -/
def ofPath (path : String) : Except Failure Format :=
  match String.ofList (Text.lower (ending (fileName path.toList))) with
  | ".csv" => .ok .separated
  | ".json" => .ok .structured
  | _ => .error (.badValue ("Unsupported fixture format: " ++ path))

/-- The failure of a format whose file does not exist. -/
def missingFile (f : Format) (path : String) : Failure :=
  .missingFile (some (f.name ++ " file not found: " ++ path))

/-- The failure of a format whose file cannot be read. -/
def unreadable (f : Format) (path : String) : Failure :=
  .badValue ("Failed to read " ++ f.name ++ ": " ++ path)

/-- The failure of a format whose file has no column of tags. -/
def withoutTags (f : Format) (path : String) : Failure :=
  match f with
  | .separated => .badValue ("CSV must contain a non-empty 'tag_string' column: " ++ path)
  | .structured => .badValue ("JSON must contain objects with a 'tag_string' field: " ++ path)

end Format

namespace Cell

/-- The cell of a field of separated values. -/
def ofField : Option String → Cell
  | some s => .text s
  | none => .empty

/-- The cell of a structured value. -/
def ofJson : Json → Except Failure Cell
  | .null => .ok .empty
  | .bool b => .ok (.flag b)
  | .integer n => .ok (.integer n)
  | .real x => .ok (.real x)
  | .text s => .ok (.text s)
  | .list _ | .object _ => .error .wrongType

end Cell

namespace Frame

/-- The table in a text of separated values. -/
def ofSeparated? (text : String) : Option Frame :=
  let text := if text.startsWith "\ufeff" then (text.drop 1).toString else text
  (Text.readTable ',' text).map fun (columns, rows) =>
    ⟨columns, rows.map fun row => row.map Cell.ofField⟩

/-- The fields of an object; nothing has none. -/
def fieldsOf : Json → Except Failure (List (String × Json))
  | .object fields => .ok fields
  | .null => .ok []
  | _ => .error .wrongType

/-- The names of the columns that the tables of posts know among some names. -/
def knownColumns (objects : List (List (String × Json))) : List String :=
  Row.columns.filter fun name => objects.any fun fields => fields.any (·.1 = name)

/-- The cells of an object in some columns. -/
def cellsOf (columns : List String) (fields : List (String × Json)) : Except Failure (List Cell) :=
  columns.mapM fun name => Cell.ofJson (((fields.find? (·.1 = name)).map (·.2)).getD .null)

/-- The table of some structured values; anything but objects makes an empty one. -/
def ofItems (items : List Json) : Except Failure Frame :=
  match items.find? fun | .null => false | _ => true with
  | some (.object _) =>
    match items.mapM fieldsOf with
    | .error e => .error e
    | .ok objects =>
      let columns := knownColumns objects
      (objects.mapM (cellsOf columns)).map (Frame.mk columns)
  | _ => .ok ⟨[], []⟩

/-- The table of a structured value. -/
def ofJson : Json → Except Failure Frame
  | .list items => ofItems items
  | item => ofItems [item]

/-- The rows of a table, unless it has none or says nothing about tags. -/
def toRows? (f : Frame) : Option (List Row) :=
  if f.rows.isEmpty || !f.columns.contains Row.tagColumn then none
  else
    let f := f.unified
    some (f.rows.map fun row => Row.ofCells (f.cell row))

end Frame

/-- The table in the text of a file. -/
def readFrame (format : Format) (path text : String) : Except Failure Frame :=
  match format with
  | .separated =>
    match Frame.ofSeparated? text with
    | some f => .ok f
    | none => .error (format.unreadable path)
  | .structured =>
    match Json.read text with
    | .error .malformed => .error (format.unreadable path)
    | .error .integerTooLong => .error .malformedNumber
    | .ok value => Frame.ofJson value

/-- The rows of a fixture, from the text of its file if the file exists. -/
def readRows (format : Format) (path : String) (text : Option String) :
    Except Failure (List Row) :=
  match text with
  | none => .error (format.missingFile path)
  | some text =>
    match readFrame format path text with
    | .error e => .error e
    | .ok f =>
      match f.toRows? with
      | some rows => .ok rows
      | none => .error (format.withoutTags path)

end Imageboard.Fixture
