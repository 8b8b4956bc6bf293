/-!
# Separated values

Tables as text: a row per line and a mark between fields. A field is quoted where it could be
misread, and a quote inside a quoted field is written twice. The reader takes what it finds: a field
is quoted if it begins with a quote, a row may have too few or too many fields, and an empty field
without quotes is nothing.
-/

namespace Imageboard.Text

/-- How a table is laid out. -/
structure Layout where
  separator : Char
  /-- What ends a row. -/
  lineEnd : List Char
  /-- Whether every empty field is quoted, and not only one that is alone in its row. -/
  quotesEmpty : Bool

/-- Commas and line feeds. -/
def Layout.commas : Layout := ⟨',', ['\n'], true⟩

/-- Tabs, and carriage returns with line feeds. -/
def Layout.tabs : Layout := ⟨'\t', ['\r', '\n'], false⟩

/-- A field in quotes. -/
def quoteField (cs : List Char) : List Char :=
  '"' :: cs.flatMap (fun c => if c = '"' then ['"', '"'] else [c]) ++ ['"']

/-- Whether a field could be misread without quotes. -/
def needsQuotes (layout : Layout) (cs : List Char) : Bool :=
  cs.any fun c => c = layout.separator || c = '"' || c = '\n' || c = '\r'

/-- A field of a row that may be its only one. -/
def writeField (layout : Layout) (alone : Bool) (cs : List Char) : List Char :=
  if cs.isEmpty then if layout.quotesEmpty || alone then ['"', '"'] else []
  else if needsQuotes layout cs then quoteField cs else cs

/-- A row with its end. -/
def writeRow (layout : Layout) (row : List String) : List Char :=
  [layout.separator].intercalate
    (row.map fun s => writeField layout (row.length == 1) s.toList) ++ layout.lineEnd

/-- A table. -/
def writeTable (layout : Layout) (rows : List (List String)) : String :=
  String.ofList (rows.flatMap (writeRow layout))

/-- What follows the first field: nothing more, or the rest after a separator or a line feed. -/
inductive FieldEnd where
  | ofText
  | ofField (rest : List Char)
  | ofRow (rest : List Char)

/-- Splits the first field off text; `inside` tells whether a quote is open. -/
def splitField (separator : Char) : Bool → List Char → List Char × FieldEnd
  | _, [] => ([], .ofText)
  | inside, c :: rest =>
    if !inside && c = separator then ([], .ofField rest)
    else if !inside && c = '\n' then ([], .ofRow rest)
    else
      let (field, stop) := splitField separator (if c = '"' then !inside else inside) rest
      (c :: field, stop)

/-- Splits the first field off text; quotes count only in a field that begins with one. -/
def firstField (separator : Char) (cs : List Char) : List Char × FieldEnd :=
  match cs with
  | '"' :: _ => splitField separator false cs
  | _ =>
    let plain := cs.takeWhile fun c => c != separator && c != '\n'
    match cs.drop plain.length with
    | [] => (plain, .ofText)
    | c :: rest => (plain, if c = separator then .ofField rest else .ofRow rest)

/-- A quote written twice becomes one. -/
def undouble : List Char → List Char
  | '"' :: '"' :: rest => '"' :: undouble rest
  | c :: rest => c :: undouble rest
  | [] => []

/-- What a field as written stands for. -/
def readField (cs : List Char) : Option String :=
  match cs with
  | [] => none
  | '"' :: rest => some (String.ofList (undouble rest.dropLast))
  | cs => some (String.ofList cs)

/-- A field without the carriage return before the end of its row. -/
def withoutReturn (cs : List Char) : List Char :=
  if cs.getLast? = some '\r' then cs.dropLast else cs

/-- Splits text into rows of fields as written; the fuel bounds the number of fields. -/
def splitRows (separator : Char) : Nat → List (List Char) → List Char → List (List (List Char))
  | 0, _, _ => []
  | fuel + 1, before, cs =>
    match firstField separator cs with
    | (field, .ofText) =>
      if field.isEmpty && before.isEmpty then [] else [before ++ [withoutReturn field]]
    | (field, .ofField rest) => splitRows separator fuel (before ++ [field]) rest
    | (field, .ofRow rest) =>
      (before ++ [withoutReturn field]) :: splitRows separator fuel [] rest

/-- Reads a table with a header: the names of the columns, and rows with as many fields. Lines
without any character are passed over where rows have several fields. -/
def readTable (separator : Char) (text : String) :
    Option (List String × List (List (Option String))) :=
  let cs := text.toList.dropWhile (· = '\n')
  match splitRows separator (cs.length + 1) [] cs with
  | [] => none
  | header :: rows =>
    let columns := header.map fun f => (readField f).getD ""
    let rows := if columns.length > 1 then rows.filter (· ≠ [[]]) else rows
    some (columns, rows.map fun r =>
      (List.range columns.length).map fun i => (r[i]?).bind readField)

end Imageboard.Text
