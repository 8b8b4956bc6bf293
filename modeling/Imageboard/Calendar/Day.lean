/-!
# Days

Days of the proleptic Gregorian calendar, numbered from the first of January of the year one. The
number and the fields of a day determine each other; `Day.ofOrdinal` splits a number by cycles of
400, 100, 4 and single years.
-/

namespace Imageboard

/-- A day by its fields. -/
structure Day where
  year : Nat
  month : Nat
  day : Nat
  deriving DecidableEq, Repr

namespace Day

/-- Whether a year has a 29th of February. -/
def isLeap (year : Nat) : Bool :=
  year % 4 == 0 && (year % 100 != 0 || year % 400 == 0)

/-- The lengths of the months of a year. -/
def monthLengths (leap : Bool) : List Nat :=
  [31, if leap then 29 else 28, 31, 30, 31, 30, 31, 31, 30, 31, 30, 31]

/-- The number of days in a month counted from one. -/
def monthLength (year month : Nat) : Nat :=
  (monthLengths (isLeap year)).getD (month - 1) 0

/-- The number of days before a year. -/
def daysBeforeYear (year : Nat) : Nat :=
  let y := year - 1
  365 * y + y / 4 - y / 100 + y / 400

/-- Whether the fields name a day from the year one to the year 9999. -/
def isValid (d : Day) : Bool :=
  1 ≤ d.year && d.year ≤ 9999 && 1 ≤ d.month && d.month ≤ 12 && 1 ≤ d.day &&
    d.day ≤ monthLength d.year d.month

/-- The number of days of a year before a month. -/
def daysBeforeMonth (leap : Bool) (month : Nat) : Nat :=
  ((monthLengths leap).take (month - 1)).foldl (· + ·) 0

/-- The number of days before a day. -/
def ordinal (d : Day) : Nat :=
  daysBeforeYear d.year + daysBeforeMonth (isLeap d.year) d.month + (d.day - 1)

/-- Finds the month that holds a day of the year. -/
def monthOf : Nat → List Nat → Nat → Nat × Nat
  | month, [], n => (month, n)
  | month, length :: more, n =>
    if n < length then (month, n) else monthOf (month + 1) more (n - length)

/-- The day that has a number of days before it. -/
def ofOrdinal (n : Nat) : Day :=
  let cycles := n / 146097
  let inCycle := n % 146097
  let centuries := min 3 (inCycle / 36524)
  let inCentury := inCycle - 36524 * centuries
  let quads := inCentury / 1461
  let inQuad := inCentury % 1461
  let singles := min 3 (inQuad / 365)
  let year := 400 * cycles + 100 * centuries + 4 * quads + singles + 1
  let (month, rest) := monthOf 1 (monthLengths (isLeap year)) (inQuad - 365 * singles)
  ⟨year, month, rest + 1⟩

/-- Pads a number with zeros to at least `width` digits. -/
def padded (width n : Nat) : String :=
  let digits := Nat.toDigits 10 n
  String.ofList (List.replicate (width - digits.length) '0' ++ digits)

/-- The text of a day with a year of at least `width` digits. -/
def text (width : Nat) (d : Day) : String :=
  padded width d.year ++ "-" ++ padded 2 d.month ++ "-" ++ padded 2 d.day

end Day

end Imageboard
