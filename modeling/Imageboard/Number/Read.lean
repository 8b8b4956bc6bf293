import Imageboard.Number.Binary64
import Imageboard.Text.Blank
import Imageboard.Text.Digit

/-!
# Reading numbers

Numbers in queries and configuration are written in the digits of any script, with an optional sign,
blanks around them and single underscores between digits. An integer has at most 4300 digits. A
floating point number may have a point and an exponent, or be one of the words for the numbers that
are not finite.
-/

namespace Imageboard

open Text

/-- The longest accepted run of digits. -/
def maxDigits : Nat := 4300

/-- The ASCII blanks that may surround a number. -/
def isAsciiBlank (c : Char) : Bool :=
  c = ' ' || (0x09 ≤ c.toNat && c.toNat ≤ 0x0d)

/-- Blanks outside ASCII become spaces and digits of any script become ASCII digits. -/
def plainNumeral (cs : List Char) : List Char :=
  cs.map fun c =>
    if c.toNat < 0x80 then c
    else if isBlank c then ' '
    else match digitValue? c with
      | some d => Nat.digitChar d
      | none => '?'

/-- A numeral without the blanks around it. -/
def trimmedNumeral (cs : List Char) : List Char :=
  let plain := plainNumeral cs
  ((plain.dropWhile isAsciiBlank).reverse.dropWhile isAsciiBlank).reverse

/-- Splits off a sign; `true` is negative. -/
def splitSign : List Char → Bool × List Char
  | '-' :: rest => (true, rest)
  | '+' :: rest => (false, rest)
  | cs => (false, cs)

/-- Removes single underscores that stand between a digit and a digit; `none` if one stands
elsewhere. The flag tells whether the character before was a digit. -/
def dropUnderscores : Bool → List Char → Option (List Char)
  | _, [] => some []
  | afterDigit, '_' :: c :: rest =>
    if afterDigit && c.isDigit then dropUnderscores false (c :: rest) else none
  | _, ['_'] => none
  | _, c :: rest => (dropUnderscores c.isDigit rest).map (c :: ·)
termination_by _ cs => cs.length

/-- The number that a run of ASCII digits stands for. -/
def digitsToNat (cs : List Char) : Nat :=
  cs.foldl (fun n c => 10 * n + (c.toNat - 0x30)) 0

/-- Reads an integer. -/
def readInteger? (s : String) : Option Int :=
  let (negative, body) := splitSign (trimmedNumeral s.toList)
  match dropUnderscores false body with
  | none => none
  | some ds =>
    if ds.isEmpty || !ds.all Char.isDigit || ds.length > maxDigits then none
    else
      let n := digitsToNat ds
      some (if negative then -(n : Int) else n)

/-- Reads a floating point number without sign: digits, point, digits and an exponent. -/
def readUnsignedReal? (negative : Bool) (cs : List Char) : Option Binary64 :=
  let whole := cs.takeWhile Char.isDigit
  let afterWhole := cs.dropWhile Char.isDigit
  let (fraction, afterFraction) := match afterWhole with
    | '.' :: rest => (rest.takeWhile Char.isDigit, rest.dropWhile Char.isDigit)
    | rest => ([], rest)
  if whole.isEmpty && fraction.isEmpty then none
  else
    let result (exponent : Int) :=
      Binary64.ofDecimal negative (digitsToNat (whole ++ fraction)) (exponent - fraction.length)
    match afterFraction with
    | [] => some (result 0)
    | c :: rest =>
      if c = 'e' ∨ c = 'E' then
        let (down, places) := splitSign rest
        if places.isEmpty || !places.all Char.isDigit then none
        else
          let n := digitsToNat places
          some (result (if down then -(n : Int) else n))
      else none

/-- Reads a floating point number. -/
def readReal? (s : String) : Option Binary64 :=
  match dropUnderscores false (trimmedNumeral s.toList) with
  | none => none
  | some cs =>
    let (negative, body) := splitSign cs
    match body.map Char.toLower with
    | ['n', 'a', 'n'] => some .nan
    | ['i', 'n', 'f'] | ['i', 'n', 'f', 'i', 'n', 'i', 't', 'y'] => some (.infinite negative)
    | _ => readUnsignedReal? negative body

end Imageboard
