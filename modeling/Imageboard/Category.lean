import Imageboard.Failure
import Imageboard.Text.LowerCase

/-!
# Tag categories

Each tag belongs to one category of a fixed, ordered set. A category has a stable integer code, a
name, further names for it, and a short name from which its tag count metatag is built. The set is
checked when it is made: codes are distinct, and so are all names taken together in lower case.
-/

namespace Imageboard

/-- A category of tags. -/
structure Category where
  code : Int
  name : String
  shortName : String
  aliases : List String
  deriving DecidableEq, Repr, Inhabited

namespace Category

/-- The metatag and order key that count the tags of the category on a post. -/
def countMetatag (c : Category) : String :=
  c.shortName ++ "tags"

/-- The lower case names by which the category is found. -/
def keys (c : Category) : List String :=
  (c.name :: c.aliases).map Text.lowerString

end Category

/-- A set of categories in order of their codes. -/
structure Categories where
  toList : List Category
  deriving DecidableEq, Repr

namespace Categories

/-- The first of some keys that is taken already, or else the keys taken after them all. -/
def claimKeys : List String → List String → Except Failure (List String)
  | taken, [] => .ok taken
  | taken, key :: rest =>
    if key ∈ taken then .error (.badValue ("Duplicate category name or alias: " ++ key))
    else claimKeys (key :: taken) rest

/-- Checks that codes and names are distinct from those before. -/
def checkDistinct : List Int → List String → List Category → Except Failure Unit
  | _, _, [] => .ok ()
  | codes, taken, c :: rest =>
    if c.code ∈ codes then .error (.badValue ("Duplicate category code: " ++ toString c.code))
    else match claimKeys taken c.keys with
      | .error e => .error e
      | .ok taken => checkDistinct (c.code :: codes) taken rest

/-- The set of some categories, put in order of their codes. -/
def ofList? (cs : List Category) : Except Failure Categories :=
  let sorted := cs.mergeSort fun a b => a.code ≤ b.code
  match checkDistinct [] [] sorted with
  | .error e => .error e
  | .ok () => .ok ⟨sorted⟩

/-- The names in order. -/
def names (cs : Categories) : List String :=
  cs.toList.map (·.name)

/-- The category with the smallest code, which new tags belong to. -/
def general? (cs : Categories) : Option Category :=
  cs.toList.head?

/-- The code that new tags get. -/
def generalCode (cs : Categories) : Int :=
  (cs.general?.map (·.code)).getD 0

/-- The category with a name, blanks around it and letter case aside. -/
def find? (cs : Categories) (name : String) : Option Category :=
  let key := String.ofList (Text.lower (Text.trim name.toList))
  cs.toList.find? fun c => key ∈ c.keys

/-- The code of the category with a name. -/
def codeOf (cs : Categories) (name : String) : Except Failure Int :=
  match cs.find? name with
  | some c => .ok c.code
  | none =>
    .error (.invalid ["Unknown category: " ++ name ++ ". Valid categories: " ++
      ", ".intercalate cs.names] none)

/-- The name of the category with a code. -/
def nameOf (cs : Categories) (code : Int) : String :=
  match cs.toList.find? (·.code = code) with
  | some c => c.name
  | none => "unknown"

/-- The categories of a board that configures none. -/
def standard : Categories :=
  ⟨[⟨0, "general", "gen", ["gen"]⟩, ⟨1, "artist", "art", ["art"]⟩,
    ⟨3, "copyright", "copy", ["copy", "co"]⟩, ⟨4, "character", "char", ["char", "ch"]⟩,
    ⟨5, "meta", "meta", []⟩]⟩

end Categories

end Imageboard
