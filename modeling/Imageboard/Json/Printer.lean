import Imageboard.Json.Basic

/-!
# Printing structured data

Structured data is printed on one line or with one item per line. Characters outside ASCII stand as
they are; quotes, backslashes and controls are escaped.
-/

namespace Imageboard.Json

/-- How the parts of structured data are separated. -/
structure Layout where
  /-- The number of spaces per level when each item has a line of its own. -/
  indent : Option Nat
  /-- What stands between items on one line. -/
  itemSeparator : String
  /-- What stands between a key and its value. -/
  keySeparator : String

/-- Everything on one line, with a space after each separator. -/
def Layout.oneLine : Layout := ⟨none, ", ", ": "⟩

/-- Everything on one line without spaces. -/
def Layout.compact : Layout := ⟨none, ",", ":"⟩

/-- An item per line, each level indented by two spaces. -/
def Layout.lines : Layout := ⟨some 2, ",", ": "⟩

/-- One character inside a text. -/
def escapeChar (c : Char) : List Char :=
  if c = '"' then ['\\', '"']
  else if c = '\\' then ['\\', '\\']
  else if c = '\n' then ['\\', 'n']
  else if c = '\r' then ['\\', 'r']
  else if c = '\t' then ['\\', 't']
  else if c = '\x08' then ['\\', 'b']
  else if c = '\x0c' then ['\\', 'f']
  else if c.toNat < 0x20 then '\\' :: 'u' :: Text.hexadecimal 4 c.toNat
  else [c]

/-- A text with its quotes. -/
def renderText (s : String) : String :=
  String.ofList ('"' :: s.toList.flatMap escapeChar ++ ['"'])

/-- A floating point number. -/
def renderReal : Binary64 → String
  | .nan => "NaN"
  | .infinite s => if s then "-Infinity" else "Infinity"
  | x => x.text

/-- Encloses the rendered items of a level. -/
def enclose (layout : Layout) (level : Nat) (start stop : String) (items : List String) : String :=
  if items.isEmpty then start ++ stop
  else match layout.indent with
    | none => start ++ layout.itemSeparator.intercalate items ++ stop
    | some width =>
      let newLine (n : Nat) := "\n" ++ String.ofList (List.replicate (n * width) ' ')
      start ++ newLine (level + 1) ++
        (layout.itemSeparator ++ newLine (level + 1)).intercalate items ++ newLine level ++ stop

mutual

/-- Prints a value at a level of nesting. -/
def renderAt (layout : Layout) (level : Nat) : Json → String
  | .null => "null"
  | .bool b => if b then "true" else "false"
  | .integer n => toString n
  | .real x => renderReal x
  | .text s => renderText s
  | .list items => enclose layout level "[" "]" (renderItems layout (level + 1) items)
  | .object fields =>
    enclose layout level "\x7b" "\x7d" (renderFields layout (level + 1) fields)

/-- Prints the items of a list. -/
def renderItems (layout : Layout) (level : Nat) : List Json → List String
  | [] => []
  | item :: rest => renderAt layout level item :: renderItems layout level rest

/-- Prints the fields of an object. -/
def renderFields (layout : Layout) (level : Nat) : List (String × Json) → List String
  | [] => []
  | (key, value) :: rest =>
    (renderText key ++ layout.keySeparator ++ renderAt layout level value) ::
      renderFields layout level rest

end

/-- Prints a value. -/
def render (layout : Layout) (value : Json) : String :=
  renderAt layout 0 value

end Imageboard.Json
