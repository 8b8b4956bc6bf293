import Imageboard.Text.Blank
import Imageboard.Text.CaseTable

/-!
# Lower case

Names and keywords are compared in lower case over all of Unicode. Two rules go beyond a map of
single characters: a dotted capital I becomes two characters, and a capital sigma that ends a word
takes its final form. ASCII folding, which the tables of the store use, is kept apart.
-/

namespace Imageboard.Text

/-- The lower case of a code point by the simple mapping. -/
def lowerPoint (n : Nat) : Nat :=
  match lowerRuns.find? fun r => r.1 ≤ n && n ≤ r.2.1 && (n - r.1) % r.2.2.1 == 0 with
  | some r => (n + r.2.2.2).toNat
  | none => n

/-- The lower case of a character taken by itself. -/
def lowerChar (c : Char) : List Char :=
  if c = 'İ' then ['i', Char.ofNat 0x307]
  else if c.toNat < 0x80 then [c.toLower]
  else [Char.ofNat (lowerPoint c.toNat)]

/-- Whether the first character that is not ignorable is cased. -/
def meetsCased (cs : List Char) : Bool :=
  match cs.dropWhile fun c => inRanges caseIgnorableRanges c.toNat with
  | [] => false
  | c :: _ => inRanges casedRanges c.toNat

/-- Lower case of text that follows `before`, nearest character first. -/
def lowerAfter : List Char → List Char → List Char
  | _, [] => []
  | before, 'Σ' :: rest =>
    (if meetsCased before && !meetsCased rest then 'ς' else 'σ') :: lowerAfter ('Σ' :: before) rest
  | before, c :: rest => lowerChar c ++ lowerAfter (c :: before) rest

/-- The lower case of text. -/
def lower (cs : List Char) : List Char :=
  lowerAfter [] cs

/-- The lower case of a string. -/
def lowerString (s : String) : String :=
  String.ofList (lower s.toList)

/-- Lower case of ASCII letters alone. Names of users and pools are compared by it. Of names with null
characters a database would compare what stands before the first of them, and their lengths; this is left
out. -/
def foldAscii (s : String) : String :=
  String.ofList (s.toList.map Char.toLower)

/-- The final sigma stands at the end of a word only. -/
example :
    lower "ΣΑΣ ΑΣΑ Σ".toList = "σας ασα σ".toList := by decide +kernel

end Imageboard.Text
