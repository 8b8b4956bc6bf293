import Imageboard.Text.Blank
import Imageboard.Text.LowerCase
import Imageboard.Value

/-!
# Cells of a fixture

What a fixture says about one field of a post: nothing, a switch, a number or text. The cells of one
column are brought to a common form before they are read, so that a column with one text in it is a
column of texts.
-/

namespace Imageboard.Fixture

/-- A cell. -/
inductive Cell where
  | empty
  | flag (b : Bool)
  | integer (n : Int)
  | real (x : Binary64)
  | text (s : String)
  deriving DecidableEq, Repr

namespace Cell

/-- How general the form of a cell is: every cell can be brought to a more general form. -/
def generality : Cell → Nat
  | .empty => 0
  | .flag _ => 1
  | .integer _ => 2
  | .real _ => 3
  | .text _ => 4

/-- A switch as a number. -/
def ofFlag (b : Bool) : Int :=
  if b then 1 else 0

/-- The text of a cell. -/
def asText? : Cell → Option String
  | .empty => none
  | .flag b => some (if b then "true" else "false")
  | .integer n => some (toString n)
  | .real x => some x.text
  | .text s => some s

/-- A cell in the form of a given generality. -/
def raise (generality : Nat) (c : Cell) : Cell :=
  match generality, c with
  | 2, .flag b => .integer (ofFlag b)
  | 3, .flag b => .real (.ofInt (ofFlag b))
  | 3, .integer n => .real (.ofInt n)
  | 4, c => (c.asText?.map Cell.text).getD .empty
  | _, c => c

/-- A number that a store accepts. -/
def fitting? (n : Int) : Option Int :=
  if (Value.integer n).fits then some n else none

/-- Reads decimal digits with or without a sign, and nothing around them. -/
def readDecimal? (cs : List Char) : Option Int :=
  let (negative, digits) := splitSign cs
  if digits.isEmpty || !digits.all Char.isDigit then none
  else
    let n : Int := digitsToNat digits
    fitting? (if negative then -n else n)

/-- The whole number in a cell; a number with a fraction loses it. -/
def asInteger? : Cell → Option Int
  | .empty => none
  | .flag b => some (ofFlag b)
  | .integer n => fitting? n
  | .real x => x.truncate?.bind fitting?
  | .text s => readDecimal? s.toList

/-- The words that switch a switch on. -/
def onWords : List String := ["1", "true", "t", "yes"]

/-- The switch in a cell. -/
def asFlag? : Cell → Option Bool
  | .empty => none
  | .flag b => some b
  | .integer n => some (n ≠ 0)
  | .real x => some (!x.isZero)
  | .text s => some (onWords.contains (String.ofList (Text.lower (Text.trim s.toList))))

end Cell

/-- A table of cells: the names of the columns, and rows with a cell for each of them. -/
structure Frame where
  columns : List String
  rows : List (List Cell)
  deriving DecidableEq, Repr

namespace Frame

/-- The generality of the most general cell of each column. -/
def generalities (f : Frame) : List Nat :=
  f.rows.foldl (fun gs row => List.zipWith (fun g c => max g c.generality) gs row)
    (f.columns.map fun _ => 0)

/-- The table with the cells of each column in one form. -/
def unified (f : Frame) : Frame :=
  { f with rows := f.rows.map fun row => List.zipWith Cell.raise f.generalities row }

/-- The cell of a row in the column of a name. -/
def cell (f : Frame) (row : List Cell) (name : String) : Cell :=
  (((f.columns.zip row).find? (·.1 = name)).map (·.2)).getD .empty

end Frame

end Imageboard.Fixture
