import Imageboard.Text.LowerCase

/-!
# Tag names

A tag is stored under one spelling of its name: in lower case, without blanks around it, and with an
underscore for each run of blanks inside it.
-/

namespace Imageboard.TagName

open Text

/-- The stored spelling of a tag name. -/
def normalizeChars (cs : List Char) : List Char :=
  (lower (squeeze (trim cs))).map fun c => if c = ' ' then '_' else c

/-- The stored spelling of a tag name. -/
def normalize (name : String) : String :=
  String.ofList (normalizeChars name.toList)

/-- Whether a character marks a tag as excluded or optional. -/
def isPolarityMark (c : Char) : Bool :=
  c = '-' || c = '~'

/-- A name without the polarity marks at its front. -/
def withoutPolarity (name : String) : String :=
  String.ofList (name.toList.dropWhile isPolarityMark)

end Imageboard.TagName
