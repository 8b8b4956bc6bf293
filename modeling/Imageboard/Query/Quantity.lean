import Imageboard.Calendar.Day
import Imageboard.Number.Read
import Imageboard.Query.Range
import Imageboard.Text.LowerCase

/-!
# Quantities

The kinds of quantity that metatags compare: whole numbers, floating point numbers, durations in
seconds, file sizes in bytes, aspect ratios to two places, and days. A single size in megapixels, or
in kilobytes or megabytes, stands for the interval of five percent around it.
-/

namespace Imageboard.Query

open Text

/-- Reads a whole number. -/
def readIntegerValue (s : String) : Except Failure Value :=
  match readInteger? s with
  | some n => .ok (.integer n)
  | none => .error .malformedNumber

/-- Reads a floating point number. -/
def readRealValue (s : String) : Except Failure Value :=
  match readReal? s with
  | some x => .ok (.real x)
  | none => .error .malformedNumber

/-- Splits a number with a unit behind it: digits, perhaps a point and digits, and letters. -/
def splitUnit? (s : String) : Option (Binary64 × String) :=
  let cs := lower (trim s.toList)
  let whole := cs.takeWhile isDigit
  let rest := cs.dropWhile isDigit
  let fraction := match rest with
    | '.' :: more => '.' :: more.takeWhile isDigit
    | _ => []
  let fraction := if fraction.length ≤ 1 then [] else fraction
  let letters := trimStart (rest.drop fraction.length)
  if whole.isEmpty || !letters.all (fun c => 'a' ≤ c && c ≤ 'z') then none
  else (readReal? (String.ofList (whole ++ fraction))).map fun x => (x, String.ofList letters)

/-- The names of the units of time and their seconds. -/
def durationUnits : List (List String × Nat) :=
  [(["", "s", "sec", "secs", "second", "seconds"], 1),
   (["mi", "min", "mins", "minute", "minutes"], 60),
   (["h", "hour", "hours"], 3600),
   (["d", "day", "days"], 86400),
   (["w", "week", "weeks"], 604800),
   (["mo", "month", "months"], 2629746),
   (["y", "year", "years"], 31556952)]

/-- The names of the units of size and their bytes. -/
def sizeUnits : List (List String × Nat) :=
  [(["", "b"], 1), (["k", "kb"], 1024), (["m", "mb"], 1048576)]

/-- The factor of a unit. -/
def unitFactor? (units : List (List String × Nat)) (unit : String) : Option Nat :=
  (units.find? fun u => unit ∈ u.1).map (·.2)

/-- The integer part of a floating point number. -/
def wholePart (x : Binary64) : Except Failure Value :=
  match x.truncate? with
  | some n => .ok (.integer n)
  | none => .error (if x = .nan then .malformedNumber else .overflow)

/-- Reads a duration in seconds. -/
def readDuration (s : String) : Except Failure Value :=
  match splitUnit? s with
  | none => .error (.badValue ("Invalid duration: " ++ s))
  | some (x, unit) =>
    match unitFactor? durationUnits unit with
    | none => .error (.badValue ("Invalid duration: " ++ s))
    | some factor => wholePart (x.mul (Binary64.ofInt factor))

/-- Reads a file size in bytes. -/
def readFilesize (s : String) : Except Failure Value :=
  match splitUnit? s with
  | none => .error (.badValue ("Invalid filesize: " ++ s))
  | some (x, unit) =>
    match unitFactor? sizeUnits unit with
    | none => .error (.badValue ("Invalid filesize unit: " ++ s))
    | some factor => wholePart (x.mul (Binary64.ofInt factor))

/-- Rounds to two places, a half of the exact value going to the even neighbour. -/
def toHundredths (x : Binary64) : Value :=
  .real (x.roundHundredths roundDiv)

/-- Reads an aspect ratio, a number or width and height with a colon between them. -/
def readRatio (s : String) : Except Failure Value :=
  let cs := trim s.toList
  match cs.dropWhile (· != ':') with
  | _ :: height =>
    match readReal? (String.ofList (cs.takeWhile (· != ':'))), readReal? (String.ofList height) with
    | some w, some h => if h.isZero then .error .divisionByZero else .ok (toHundredths (w.div h))
    | _, _ => .error .malformedNumber
  | [] =>
    match readReal? (String.ofList cs) with
    | some x => .ok (toHundredths x)
    | none => .error .malformedNumber

/-- The value of digits of any script. -/
def digitsValue? (cs : List Char) : Option Nat :=
  cs.foldlM (fun n c => (digitValue? c).map (10 * n + ·)) 0

/-- Reads a month number of one or two digits. -/
def splitMonth? : List Char → Option (Nat × List Char)
  | '1' :: c :: rest =>
    if '0' ≤ c ∧ c ≤ '2' then some (10 + (c.toNat - 0x30), rest) else some (1, c :: rest)
  | '0' :: c :: rest => if '1' ≤ c ∧ c ≤ '9' then some (c.toNat - 0x30, rest) else none
  | c :: rest => if '1' ≤ c ∧ c ≤ '9' then some (c.toNat - 0x30, rest) else none
  | [] => none

/-- Reads a day of the month of one or two characters that ends the text. -/
def lastDay? : List Char → Option Nat
  | [c] => if '1' ≤ c ∧ c ≤ '9' then some (c.toNat - 0x30) else none
  | [a, b] =>
    if a = '3' then if b = '0' ∨ b = '1' then some (30 + (b.toNat - 0x30)) else none
    else if a = '1' ∨ a = '2' then (digitValue? b).map (10 * (a.toNat - 0x30) + ·)
    else if a = '0' ∨ a = ' ' then
      if '1' ≤ b ∧ b ≤ '9' then some (b.toNat - 0x30) else none
    else none
  | _ => none

/-- Reads a day whose parts are separated by a given character. -/
def readDay? (separator : Char) (cs : List Char) : Option Day :=
  match (if (cs.take 4).length = 4 then digitsValue? (cs.take 4) else none), cs.drop 4 with
  | some year, c :: rest =>
    if c != separator then none
    else match splitMonth? rest with
      | some (month, d :: rest) =>
        if d != separator then none
        else match lastDay? rest with
          | some day => if (Day.mk year month day).isValid then some ⟨year, month, day⟩ else none
          | none => none
      | _ => none
  | _, _ => none

/-- Reads a day. -/
def readDate (s : String) : Except Failure Value :=
  let cs := trim s.toList
  match (readDay? '-' cs).or (readDay? '/' cs) with
  | some day => .ok (.text (day.text 4))
  | none => .error (.badValue ("Invalid date: " ++ String.ofList cs))

/-- Five percent below and above one. -/
def tolerance : Binary64 × Binary64 :=
  (Binary64.ofQuotient false 95 100, Binary64.ofQuotient false 105 100)

/-- A single floating point number stands for the interval around it. -/
def widenReal : Range → Range
  | .eq (.real x) => .between (.real (x.mul tolerance.1)) (.real (x.mul tolerance.2))
  | range => range

/-- A single whole number stands for the interval around it. -/
def widenInteger : Range → Except Failure Range
  | .eq (.integer n) =>
    match wholePart ((Binary64.ofInt n).mul tolerance.1),
      wholePart ((Binary64.ofInt n).mul tolerance.2) with
    | .ok lower, .ok upper => .ok (.between lower upper)
    | .error e, _ => .error e
    | _, .error e => .error e
  | range => .ok range

/-- Whether a size ends in kilobytes or megabytes with a digit somewhere before the unit. -/
def isRoughSize (s : String) : Bool :=
  let cs := (lower (trim s.toList)).reverse
  let unit := match cs with
    | 'b' :: rest => rest
    | rest => rest
  match unit with
  | c :: rest =>
    (c = 'k' || c = 'm') &&
      match trimStart rest with
      | d :: _ => isDigit d
      | [] => false
  | [] => false

/-- Reads a range of file sizes. -/
def readFilesizeRange (value : String) : Except Failure Range :=
  match readRange readFilesize "filesize" value with
  | .error e => .error e
  | .ok range => if isRoughSize value then widenInteger range else .ok range

/-- Reads a range of sizes in megapixels. -/
def readMpixelsRange (value : String) : Except Failure Range :=
  (readRange readRealValue "mpixels" value).map widenReal

end Imageboard.Query
