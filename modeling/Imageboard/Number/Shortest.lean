import Imageboard.Number.Binary64

/-!
# Shortest decimal text

A floating point number is written with the fewest significant digits that read back as the same
number, and among those with the digits nearest to it. The search looks at one decimal grid after
another, from one digit to seventeen, and on each grid at the two neighbours of the number. The
record `Notation` fixes the rest: where positional writing ends and how exponents look.
-/

namespace Imageboard

namespace Shortest

/-- Whether `num / den` lies between the bounds of the numbers that round to a given one. -/
def within (inclusive : Bool) (low high value : Nat × Nat) : Bool :=
  let above := low.1 * value.2
  let here := value.1 * low.2
  let below := high.1 * value.2
  let there := value.1 * high.2
  if inclusive then above ≤ here && there ≤ below else above < here && there < below

/-- `n · 10 ^ p` as a quotient. -/
def decimal (n : Nat) (p : Int) : Nat × Nat :=
  if p < 0 then (n, Nat.pow 10 p.natAbs) else (n * Nat.pow 10 p.natAbs, 1)

/-- The number of decimal digits of a positive number. -/
def digitCount (n : Nat) : Nat :=
  (Nat.toDigits 10 n).length

/-- The bounds, in halves of the last place, of the numbers that round to `m · 2 ^ e`. -/
def bounds (m : Nat) (e : Int) : (Nat × Nat) × (Nat × Nat) :=
  let low :=
    if m = Binary64.leastFull ∧ e > Binary64.minExponent then Binary64.scaled (4 * m - 1) 1 (e - 2)
    else Binary64.scaled (2 * m - 1) 1 (e - 1)
  (low, Binary64.scaled (2 * m + 1) 1 (e - 1))

/-- The better of the two neighbours of `value` on the grid of step `10 ^ p`, if one of them reads
back. -/
def onGrid (inclusive : Bool) (low high value : Nat × Nat) (p : Int) : Option Nat :=
  let unit := decimal 1 p
  let num := value.1 * unit.2
  let den := value.2 * unit.1
  let floor := num / den
  let lower := within inclusive low high (decimal floor p)
  let upper := within inclusive low high (decimal (floor + 1) p)
  match lower, upper with
  | false, false => none
  | true, false => some floor
  | false, true => some (floor + 1)
  | true, true => some (roundDiv num den)

/-- Tries the grids of `count` digits and more, `fuel` of them. -/
def search (inclusive : Bool) (low high value : Nat × Nat) (top : Int) : Nat → Nat → Nat × Int
  | 0, count => (0, top - count)
  | fuel + 1, count =>
    let p := top - count
    match onGrid inclusive low high value p with
    | some n => (n, p)
    | none => search inclusive low high value top fuel (count + 1)

/-- A power of ten above the value, so that one digit below it is the leading digit. -/
def leading (value : Nat × Nat) : Int :=
  if value.2 ≤ value.1 then digitCount (value.1 / value.2)
  else 1 - digitCount (value.2 / value.1)

/-- Drops the zeros at the end of the digits. -/
def stripZeros : Nat → Nat → Int → Nat × Int
  | 0, n, p => (n, p)
  | fuel + 1, n, p => if n % 10 = 0 ∧ n ≠ 0 then stripZeros fuel (n / 10) (p + 1) else (n, p)

/-- The shortest digits of `m · 2 ^ e` for a positive `m`, with the power of ten of the last. -/
def digits (m : Nat) (e : Int) : Nat × Int :=
  let value := Binary64.magnitude m e
  let (low, high) := bounds m e
  let (n, p) := search (m % 2 = 0) low high value (leading value) 18 1
  stripZeros 20 n p

end Shortest

/-- How the digits of a number are laid out. -/
structure Notation where
  /-- The least power of ten of the leading digit that is written positionally. -/
  positionalFrom : Int
  /-- The first power of ten of the leading digit that is not. -/
  positionalTo : Int
  /-- The least number of digits of an exponent. -/
  exponentDigits : Nat
  /-- What follows a whole number. -/
  wholeSuffix : String

namespace Notation

/-- Positional from `0.0001` up to sixteen digits before the point, with `.0` after a whole number
and exponents of at least two digits. -/
def plain : Notation := ⟨-4, 16, 2, ".0"⟩

/-- Lays out positive digits whose last stands for `10 ^ p`. -/
def layOut (style : Notation) (n : Nat) (p : Int) : String :=
  let ds := Nat.toDigits 10 n
  let head : Int := p + ds.length - 1
  let text :=
    if style.positionalFrom ≤ head ∧ head < style.positionalTo then
      if 0 ≤ p then ds ++ List.replicate p.toNat '0' ++ style.wholeSuffix.toList
      else if 0 ≤ head then
        ds.take (head.toNat + 1) ++ '.' :: ds.drop (head.toNat + 1)
      else '0' :: '.' :: List.replicate (-head - 1).toNat '0' ++ ds
    else
      let mantissa := match ds with
        | [d] => [d]
        | d :: more => d :: '.' :: more
        | [] => []
      let places := Nat.toDigits 10 head.natAbs
      let sign := if head < 0 then '-' else '+'
      mantissa ++ 'e' :: sign :: List.replicate (style.exponentDigits - places.length) '0' ++ places
  String.ofList text

end Notation

/-- The text of a floating point number. -/
def Binary64.text : Binary64 → String
  | .nan => "nan"
  | .infinite s => if s then "-inf" else "inf"
  | .finite s m e =>
    let sign := if s then "-" else ""
    if m = 0 then sign ++ "0" ++ Notation.plain.wholeSuffix
    else
      let (n, p) := Shortest.digits m e
      sign ++ Notation.plain.layOut n p

end Imageboard
