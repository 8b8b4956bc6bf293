/-!
# Binary floating point numbers

Ratios, sizes in megapixels and cache deadlines are binary floating point numbers of 53 bits. A
finite one is kept as sign, mantissa and power of two, so that every operation is defined by an
exact quotient of natural numbers and one rounding to nearest, a half going to the even mantissa.
Nothing here depends on the machine's own floating point unit.
-/

namespace Imageboard

/-- A floating point number; a finite one is `± mantissa · 2 ^ exponent`. -/
inductive Binary64 where
  | nan
  | infinite (negative : Bool)
  | finite (negative : Bool) (mantissa : Nat) (exponent : Int)
  deriving DecidableEq, Repr, Inhabited

/-- The quotient rounded to nearest, a half going to the even neighbour. -/
def roundDiv (num den : Nat) : Nat :=
  let q := num / den
  let r := num % den
  if 2 * r < den then q else if 2 * r > den then q + 1 else q + q % 2

/-- The quotient rounded to nearest, a half going up. -/
def roundDivUp (num den : Nat) : Nat :=
  (2 * num + den) / (2 * den)

namespace Binary64

/-- The exponent of the smallest positive number. -/
def minExponent : Int := -1074

/-- The exponent of the largest finite numbers. -/
def maxExponent : Int := 971

/-- The least mantissa of 53 bits. -/
def leastFull : Nat := 1 <<< 52

/-- Zero. -/
def zero (negative : Bool) : Binary64 := .finite negative 0 minExponent

/-- `num · 2 ^ shift` as a quotient of natural numbers. -/
def scaled (num den : Nat) (shift : Int) : Nat × Nat :=
  if shift < 0 then (num, den <<< shift.natAbs) else (num <<< shift.natAbs, den)

/-- Assembles a rounded mantissa, which may have carried into one more bit. -/
def pack (negative : Bool) (mantissa : Nat) (exponent : Int) : Binary64 :=
  if mantissa = 0 then zero negative
  else
    let carried := mantissa = 2 * leastFull
    let m := if carried then leastFull else mantissa
    let e := if carried then exponent + 1 else exponent
    if e > maxExponent then .infinite negative else .finite negative m e

/-- The number nearest to `± num / den`, for a positive `den`. -/
def ofQuotient (negative : Bool) (num den : Nat) : Binary64 :=
  if num = 0 then zero negative
  else
    let guess : Int := (num.log2 : Int) - (den.log2 : Int) - 52
    let small := scaled num den (-guess)
    let exponent := max minExponent (if small.1 < leastFull * small.2 then guess - 1 else guess)
    let exact := scaled num den (-exponent)
    pack negative (roundDiv exact.1 exact.2) exponent

/-- The number nearest to an integer. -/
def ofInt (n : Int) : Binary64 :=
  ofQuotient (n < 0) n.natAbs 1

/-- The magnitude of a finite number as a quotient. -/
def magnitude (mantissa : Nat) (exponent : Int) : Nat × Nat :=
  scaled mantissa 1 exponent

/-- Whether the number is a zero of either sign. -/
def isZero : Binary64 → Bool
  | .finite _ 0 _ => true
  | _ => false

/-- The sign of the number. -/
def isNegative : Binary64 → Bool
  | .nan => false
  | .infinite s => s
  | .finite s _ _ => s

/-- The product. -/
def mul : Binary64 → Binary64 → Binary64
  | .nan, _ | _, .nan => .nan
  | .infinite s, y => if y.isZero then .nan else .infinite (s != y.isNegative)
  | x, .infinite s => if x.isZero then .nan else .infinite (s != x.isNegative)
  | .finite s m e, .finite t n f =>
    let q := scaled (m * n) 1 (e + f)
    ofQuotient (s != t) q.1 q.2

/-- The quotient of two numbers of which the second is not zero. -/
def div : Binary64 → Binary64 → Binary64
  | .nan, _ | _, .nan => .nan
  | .infinite _, .infinite _ => .nan
  | .infinite s, y => .infinite (s != y.isNegative)
  | x, .infinite s => zero (s != x.isNegative)
  | .finite s m e, .finite t n f =>
    let q := scaled m n (e - f)
    ofQuotient (s != t) q.1 q.2

/-- The finite number as an integer over a power of two. -/
def signedMagnitude (negative : Bool) (mantissa : Nat) (exponent : Int) : Int × Nat :=
  let q := magnitude mantissa exponent
  (if negative then -(q.1 : Int) else q.1, q.2)

/-- The sum. -/
def add : Binary64 → Binary64 → Binary64
  | .nan, _ | _, .nan => .nan
  | .infinite s, .infinite t => if s = t then .infinite s else .nan
  | .infinite s, _ => .infinite s
  | _, .infinite s => .infinite s
  | .finite s m e, .finite t n f =>
    let x := signedMagnitude s m e
    let y := signedMagnitude t n f
    let sum := x.1 * y.2 + y.1 * x.2
    if sum = 0 then zero (s && t) else ofQuotient (sum < 0) sum.natAbs (x.2 * y.2)

/-- How two numbers compare; there is no answer when one of them is not a number. -/
def compare? : Binary64 → Binary64 → Option Ordering
  | .nan, _ | _, .nan => none
  | .infinite s, .infinite t => some (if s = t then .eq else if s then .lt else .gt)
  | .infinite s, _ => some (if s then .lt else .gt)
  | _, .infinite s => some (if s then .gt else .lt)
  | .finite s m e, .finite t n f =>
    let x := signedMagnitude s m e
    let y := signedMagnitude t n f
    some (compare (x.1 * y.2) (y.1 * x.2))

/-- How an integer compares with a number, without rounding the integer. -/
def compareInt? (i : Int) : Binary64 → Option Ordering
  | .nan => none
  | .infinite s => some (if s then .gt else .lt)
  | .finite s m e =>
    let y := signedMagnitude s m e
    some (compare (i * y.2) y.1)

/-- The integer part, toward zero; there is none for the numbers that are not finite. -/
def truncate? : Binary64 → Option Int
  | .finite s m e =>
    let q := magnitude m e
    some (if s then -((q.1 / q.2 : Nat) : Int) else (q.1 / q.2 : Nat))
  | _ => none

/-- Rounds to two decimal places by the given rounding of quotients. -/
def roundHundredths (round : Nat → Nat → Nat) : Binary64 → Binary64
  | .finite s m e =>
    let q := magnitude m e
    ofQuotient s (round (q.1 * 100) q.2) 100
  | x => x

/-- The number written as `digits · 10 ^ exponent`. -/
def ofDecimal (negative : Bool) (digits : Nat) (exponent : Int) : Binary64 :=
  if digits = 0 then zero negative
  else
    let size : Int := (digits.log2 : Int) * 30103 / 100000 + exponent
    if size > 400 then .infinite negative
    else if size < -400 then zero negative
    else if exponent < 0 then ofQuotient negative digits (Nat.pow 10 exponent.natAbs)
    else ofQuotient negative (digits * Nat.pow 10 exponent.natAbs) 1

end Binary64

end Imageboard
