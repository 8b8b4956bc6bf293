import Imageboard.Number.Shortest
import Imageboard.Text.Quoted

/-!
# Structured data

The values of configuration files and post fixtures. Objects keep the order of their keys, and whole
numbers are kept apart from floating point numbers.
-/

namespace Imageboard

/-- A structured value. -/
inductive Json where
  | null
  | bool (b : Bool)
  | integer (n : Int)
  | real (x : Binary64)
  | text (s : String)
  | list (items : List Json)
  | object (fields : List (String × Json))
  deriving Inhabited

namespace Json

/-- The value of a key of an object. -/
def get? : Json → String → Option Json
  | .object fields, key => (fields.find? (·.1 = key)).map (·.2)
  | _, _ => none

/-- Sets a key: a key that is there keeps its place and takes the new value. -/
def put (fields : List (String × Json)) (key : String) (value : Json) : List (String × Json) :=
  if fields.any (·.1 = key) then
    fields.map fun f => if f.1 = key then (key, value) else f
  else fields ++ [(key, value)]

/-- The type of a value as messages name it. -/
def typeName : Json → String
  | .null => "NoneType"
  | .bool _ => "bool"
  | .integer _ => "int"
  | .real _ => "float"
  | .text _ => "str"
  | .list _ => "list"
  | .object _ => "dict"

mutual

/-- How a value is shown in messages. -/
def describe : Json → String
  | .null => "None"
  | .bool b => if b then "True" else "False"
  | .integer n => toString n
  | .real x => x.text
  | .text s => Text.quoted s
  | .list items => "[" ++ ", ".intercalate (describeItems items) ++ "]"
  | .object fields => "\x7b" ++ ", ".intercalate (describeFields fields) ++ "\x7d"

/-- The items of a list as shown in messages. -/
def describeItems : List Json → List String
  | [] => []
  | item :: rest => item.describe :: describeItems rest

/-- The fields of an object as shown in messages. -/
def describeFields : List (String × Json) → List String
  | [] => []
  | (key, value) :: rest => (Text.quoted key ++ ": " ++ value.describe) :: describeFields rest

end

/-- The bare text of a value: a text itself, anything else as shown in messages. -/
def plainText : Json → String
  | .text s => s
  | v => v.describe

end Json

end Imageboard
