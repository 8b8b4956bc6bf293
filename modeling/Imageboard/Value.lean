import Imageboard.Number.Read
import Imageboard.Number.Shortest

/-!
# Values

The scalars that are compared, bound to statements and kept in columns of mixed content. Their
order puts numbers before text; whole and floating point numbers compare by what they are worth, and
`null` compares with nothing.
-/

namespace Imageboard

/-- A scalar. -/
inductive Value where
  | null
  | integer (n : Int)
  | real (x : Binary64)
  | text (s : String)
  deriving DecidableEq, Repr, Inhabited

namespace Value

/-- How a value is shown in descriptions. -/
def describe : Value → String
  | .null => "None"
  | .integer n => toString n
  | .real x => x.text
  | .text s => s

/-- What a value becomes when it is bound: a number that is not a number is nothing. -/
def bound : Value → Value
  | .real .nan => .null
  | v => v

/-- How two values compare, `none` when one of them is nothing. -/
def compare? : Value → Value → Option Ordering
  | .null, _ | _, .null => none
  | .text s, .text t => some (compare s t)
  | .text _, _ => some .gt
  | _, .text _ => some .lt
  | .integer m, .integer n => some (compare m n)
  | .integer m, .real y => y.compareInt? m
  | .real x, .integer n => (x.compareInt? n).map Ordering.swap
  | .real x, .real y => x.compare? y

/-- How two values are put in order; nothing comes before all else. -/
def order (x y : Value) : Ordering :=
  match x, y with
  | .null, .null => .eq
  | .null, _ => .lt
  | _, .null => .gt
  | _, _ => (x.compare? y).getD .eq

/-- The smallest and the first too large integer that a statement accepts. -/
def integerBounds : Int × Int := (-9223372036854775808, 9223372036854775808)

/-- Whether a value can be bound to a statement. -/
def fits : Value → Bool
  | .integer n => integerBounds.1 ≤ n && n < integerBounds.2
  | _ => true

/-- The whole number that a floating point number is equal to, if a statement accepts it. -/
def wholeOf? (x : Binary64) : Option Int :=
  match x.truncate? with
  | some n => if x.compareInt? n = some .eq ∧ (integer n).fits then some n else none
  | none => none

/-- A number as a column of times keeps it: a whole one as an integer. -/
def ofNumber (x : Binary64) : Value :=
  match wholeOf? x with
  | some n => .integer n
  | none => .real x

/-- A text as a column of times keeps it: one that reads as a number becomes that number. -/
def ofTimeText (s : String) : Value :=
  let cs := ((s.toList.dropWhile isAsciiBlank).reverse.dropWhile isAsciiBlank).reverse
  let (negative, body) := splitSign cs
  match readUnsignedReal? negative body with
  | none => .text s
  | some x =>
    if body.all Char.isDigit then
      let n : Int := digitsToNat body
      let n := if negative then -n else n
      if (integer n).fits then .integer n else .real x
    else ofNumber x

/-- A value as a column of times keeps it. -/
def inTimeColumn : Value → Value
  | .text s => ofTimeText s
  | .real x => ofNumber x
  | v => v

/-- A text or nothing. -/
def ofText? : Option String → Value
  | some s => .text s
  | none => .null

/-- An integer or nothing. -/
def ofInteger? : Option Int → Value
  | some n => .integer n
  | none => .null

end Value

end Imageboard
