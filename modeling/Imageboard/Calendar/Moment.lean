import Imageboard.Calendar.Day
import Imageboard.Text.Digit

/-!
# Moments

A moment is a wall clock time together with its distance from universal time. Time stamps are kept
as text in universal time. Moving a moment, and changing it to universal time, can leave the years
one to 9999; then there is no result. The distance belongs to the moment: zones in which it changes with
the season are left out.
-/

namespace Imageboard

/-- The number of seconds from the start of the year one to the end of the year 9999. -/
def secondsInCalendar : Int := 3652059 * 86400

/-- A wall clock time in seconds since the start of the year one, and how many seconds it is ahead
of universal time. -/
structure Moment where
  wall : Int
  ahead : Int
  deriving DecidableEq, Repr

namespace Moment

/-- Whether a number of seconds lies in the years one to 9999. -/
def inCalendar (seconds : Int) : Bool :=
  0 ≤ seconds && seconds < secondsInCalendar

/-- The text of a number of seconds since the start of the year one; the year is not padded. -/
def stampText (seconds : Nat) : String :=
  let time := seconds % 86400
  Day.text 0 (Day.ofOrdinal (seconds / 86400)) ++ " " ++ Day.padded 2 (time / 3600) ++ ":" ++
    Day.padded 2 (time % 3600 / 60) ++ ":" ++ Day.padded 2 (time % 60)

/-- The time stamp of a moment in universal time. -/
def stamp? (m : Moment) : Option String :=
  let seconds := m.wall - m.ahead
  if inCalendar seconds then some (stampText seconds.toNat) else none

/-- The longest distance that a moment can be moved, in days. -/
def maxDays : Int := 999999999

/-- The moment some seconds earlier. -/
def earlier? (m : Moment) (seconds : Int) : Option Moment :=
  if (seconds / 86400).natAbs > maxDays.toNat then none
  else if inCalendar (m.wall - seconds) then some { m with wall := m.wall - seconds } else none

/-- The value of ASCII digits. -/
def number? (cs : List Char) : Option Nat :=
  if !cs.isEmpty && cs.all Char.isDigit then
    some (cs.foldl (fun n c => 10 * n + (c.toNat - 0x30)) 0)
  else none

/-- Reads hours, minutes and seconds, with or without colons, a fraction of a second dropped. -/
def clock? (cs : List Char) : Option Nat :=
  let whole := cs.takeWhile fun c => c != '.' && c != ','
  let fields := if ':' ∈ whole then whole.filter (· != ':') else whole
  match number? (fields.take 2), fields.drop 2 with
  | some h, [] => if h < 24 then some (3600 * h) else none
  | some h, rest =>
    match number? (rest.take 2), rest.drop 2 with
    | some m, [] => if h < 24 ∧ m < 60 then some (3600 * h + 60 * m) else none
    | some m, rest =>
      match number? rest with
      | some s =>
        if h < 24 ∧ m < 60 ∧ s < 60 ∧ rest.length = 2 then some (3600 * h + 60 * m + s) else none
      | none => none
    | none, _ => none
  | none, _ => none

/-- Reads a date written with or without hyphens, and returns what follows it. -/
def date? (cs : List Char) : Option (Day × List Char) :=
  let (fields, rest) :=
    if cs.getD 4 ' ' = '-' then (cs.take 4 ++ (cs.drop 5).take 2 ++ (cs.drop 8).take 2, cs.drop 10)
    else (cs.take 8, cs.drop 8)
  match number? (fields.take 4), number? ((fields.drop 4).take 2), number? (fields.drop 6) with
  | some y, some m, some d => if (Day.mk y m d).isValid then some (⟨y, m, d⟩, rest) else none
  | _, _, _ => none

/-- Reads a moment in the international format; without an offset it is in universal time. -/
def ofIso? (s : String) : Option Moment :=
  match date? s.toList with
  | none => none
  | some (day, rest) =>
    let start : Int := (day.ordinal : Int) * 86400
    match rest with
    | [] => some ⟨start, 0⟩
    | _ :: time =>
      let isMark (c : Char) := c == '+' || c == '-' || c == 'Z'
      let clock := time.takeWhile fun c => !isMark c
      match clock? clock, time.dropWhile fun c => !isMark c with
      | some t, [] => some ⟨start + t, 0⟩
      | some t, ['Z'] => some ⟨start + t, 0⟩
      | some t, mark :: offset =>
        match clock? offset with
        | some o => some ⟨start + t, if mark = '-' then -(o : Int) else o⟩
        | none => none
      | none, _ => none

/-- A moment given in seconds since the start of 1970, universal time. -/
def ofEpoch (seconds : Int) : Moment :=
  ⟨719162 * 86400 + seconds, 0⟩

end Moment

end Imageboard
