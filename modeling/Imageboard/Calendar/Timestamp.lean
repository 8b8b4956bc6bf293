import Imageboard.Calendar.Moment
import Imageboard.Number.Read
import Imageboard.Value

/-!
# Days of time stamps

The day of a stored time. A time stamp is a date with a year of four digits, perhaps with a time of
day and a distance from universal time; a time of day alone belongs to the first day of 2000. A day
of the month that is too large, up to 31, runs over into the next month. A number counts days from
noon of the first day of the Julian period, in the year 4713 before the year zero.
-/

namespace Imageboard.Timestamp

/-- Reads two digits of a number within bounds. -/
def twoDigits? (low high : Nat) : List Char → Option (Nat × List Char)
  | a :: b :: rest =>
    if a.isDigit && b.isDigit then
      let n := digitsToNat [a, b]
      if low ≤ n ∧ n ≤ high then some (n, rest) else none
    else none
  | _ => none

/-- Drops a given character. -/
def dropMark? (mark : Char) : List Char → Option (List Char)
  | c :: rest => if c = mark then some rest else none
  | [] => none

/-- Reads a distance from universal time, in minutes, up to the end. -/
def zone? (cs : List Char) : Option Int :=
  let offset? (sign : Int) (rest : List Char) : Option Int := do
    let (hours, rest) ← twoDigits? 0 14 rest
    let rest ← dropMark? ':' rest
    let (minutes, rest) ← twoDigits? 0 59 rest
    if rest.all isAsciiBlank then some (sign * (60 * hours + minutes : Nat)) else none
  match cs.dropWhile isAsciiBlank with
  | [] => some 0
  | '+' :: rest => offset? 1 rest
  | '-' :: rest => offset? (-1) rest
  | c :: rest => if (c = 'Z' ∨ c = 'z') ∧ rest.all isAsciiBlank then some 0 else none

/-- Drops a fraction of a second. -/
def dropFraction : List Char → List Char
  | '.' :: c :: rest => if c.isDigit then (c :: rest).dropWhile Char.isDigit else '.' :: c :: rest
  | cs => cs

/-- Reads a time of day with its distance from universal time: seconds and minutes. -/
def time? (cs : List Char) : Option (Nat × Int) := do
  let (hours, rest) ← twoDigits? 0 24 cs
  let rest ← dropMark? ':' rest
  let (minutes, rest) ← twoDigits? 0 59 rest
  match rest with
  | ':' :: rest =>
    let (seconds, rest) ← twoDigits? 0 59 rest
    let zone ← zone? (dropFraction rest)
    some (3600 * hours + 60 * minutes + seconds, zone)
  | rest =>
    let zone ← zone? rest
    some (3600 * hours + 60 * minutes, zone)

/-- A day whose year may lie before the year one, and which may run over its month. -/
structure Date where
  year : Int
  month : Nat
  day : Nat
  deriving DecidableEq, Repr

/-- The years of some cycles of the calendar, as many as make every year positive. -/
def shiftYears : Int := 4800

/-- The days of these years. -/
def shiftDays : Int := 1753164

namespace Date

/-- The number of days from the first day of the year one to a day. -/
def number (d : Date) : Int :=
  (Day.ordinal ⟨(d.year + shiftYears).toNat, d.month, d.day⟩ : Int) - shiftDays

/-- The day with a number. -/
def ofNumber (n : Int) : Date :=
  let d := Day.ofOrdinal (n + shiftDays).toNat
  ⟨(d.year : Int) - shiftYears, d.month, d.day⟩

/-- The text of a day, with a hyphen in front of a year before the year zero. -/
def text (d : Date) : String :=
  (if d.year < 0 then "-" else "") ++ Day.text 4 ⟨d.year.natAbs, d.month, d.day⟩

/-- The first day of the Julian period. -/
def julianFirst : Int := -1721426

end Date

/-- Reads a date with a year of four digits, perhaps with a hyphen in front. -/
def date? (cs : List Char) : Option (Date × List Char) := do
  let (sign, cs) : Int × List Char := match cs with
    | '-' :: rest => (-1, rest)
    | rest => (1, rest)
  let (century, rest) ← twoDigits? 0 99 cs
  let (year, rest) ← twoDigits? 0 99 rest
  let rest ← dropMark? '-' rest
  let (month, rest) ← twoDigits? 1 12 rest
  let rest ← dropMark? '-' rest
  let (day, rest) ← twoDigits? 1 31 rest
  some (⟨sign * (100 * century + year : Nat), month, day⟩, rest)

/-- The seconds from the start of the year one to a time of a day, if it is not before the Julian
period, which begins at noon, and not after the year 9999. -/
def secondsTo? (d : Date) (seconds : Nat) (zone : Int) : Option Int :=
  let total := d.number * 86400 + seconds - 60 * zone
  if Date.julianFirst * 86400 + 43200 ≤ total ∧ total < secondsInCalendar then some total else none

/-- The day of a time of a day that may run over its month. -/
def normalized? (d : Date) (seconds : Nat) (zone : Int) : Option Date :=
  (secondsTo? d seconds zone).map fun total => Date.ofNumber (total / 86400)

/-- The day of a date and a time of day; only a late day of the month or a distance from universal
time moves it. -/
def dayOf? (d : Date) (seconds : Nat) (zone : Int) : Option Date :=
  if d.year < -4713 then none
  else if d.day > 28 ∨ zone ≠ 0 then normalized? d seconds zone
  else (secondsTo? d seconds zone).map fun _ => d

/-- The day of a time stamp. -/
def ofText? (cs : List Char) : Option Date :=
  match date? cs with
  | some (d, rest) =>
    let rest := rest.dropWhile fun c => isAsciiBlank c || c = 'T'
    match time? rest with
    | some (seconds, zone) => dayOf? d seconds zone
    | none => if rest.isEmpty then dayOf? d 0 0 else none
  | none => (time? cs).bind fun (seconds, zone) => normalized? ⟨2000, 1, 1⟩ seconds zone

/-- Half. -/
def half : Binary64 := .ofQuotient false 1 2

/-- The end of the Julian period as far as it is used, in days. -/
def julianEnd : Binary64 := .ofQuotient false 10746969 2

/-- The number of milliseconds in a day. -/
def dayMillis : Int := 86400000

/-- The day that a number of days since the start of the Julian period falls on; it is rounded to
milliseconds. -/
def ofJulian? (x : Binary64) : Option Date :=
  if !x.isNegative ∧ x.compare? julianEnd = some .lt then
    (((x.mul (.ofInt dayMillis)).add half).truncate?).map fun millis =>
      Date.ofNumber ((millis + dayMillis / 2) / dayMillis + Date.julianFirst)
  else none

/-- The text of the day of a stored time. -/
def day (v : Value) : Value :=
  let found := match v with
    | .text s => ofText? (s.toList.takeWhile (·.toNat != 0))
    | .integer n => ofJulian? (.ofInt n)
    | .real x => ofJulian? x
    | .null => none
  .ofText? (found.map Date.text)

/-- A day that does not exist runs over. -/
example : day (.text "2023-02-31") = .text "2023-03-03" := by decide +kernel

end Imageboard.Timestamp
