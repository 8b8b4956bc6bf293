import Imageboard.Failure
import Imageboard.Text.Blank
import Imageboard.Value

/-!
# Ranges

A metatag on a quantity takes a single value, a comparison, an interval that may be open on one
side, or a list. The form of a range is told from its text by a fixed sequence of tests; the parts
are read by a reader for the kind of quantity.
-/

namespace Imageboard.Query

open Text

/-- A set of values: one, those on one side of a bound, an interval, or a list. -/
inductive Range where
  | eq (v : Value)
  | lt (v : Value)
  | lte (v : Value)
  | gt (v : Value)
  | gte (v : Value)
  | between (lower upper : Value)
  | among (vs : List Value)
  deriving DecidableEq, Repr

namespace Range

/-- The text of a range. -/
def describe : Range → String
  | eq v => v.describe
  | lt v => "<" ++ v.describe
  | lte v => "<=" ++ v.describe
  | gt v => ">" ++ v.describe
  | gte v => ">=" ++ v.describe
  | between lower upper => lower.describe ++ ".." ++ upper.describe
  | among vs => ",".intercalate (vs.map Value.describe)

/-- The values that a range mentions, in order. -/
def values : Range → List Value
  | eq v | lt v | lte v | gt v | gte v => [v]
  | between lower upper => [lower, upper]
  | among vs => vs

end Range

/-- A reader of one quantity. -/
abbrev Reader := String → Except Failure Value

/-- The part before and the part after the first two dots in a row. -/
def splitDots? : List Char → Option (List Char × List Char)
  | '.' :: '.' :: rest => some ([], rest)
  | c :: rest => (splitDots? rest).map fun r => (c :: r.1, r.2)
  | [] => none

/-- The parts between commas. -/
def splitCommas : List Char → List (List Char)
  | [] => [[]]
  | ',' :: rest => [] :: splitCommas rest
  | c :: rest =>
    match splitCommas rest with
    | [] => [[c]]
    | part :: more => (c :: part) :: more

/-- The parts between commas that are not blank, trimmed. -/
def commaItems (cs : List Char) : List (List Char) :=
  ((splitCommas cs).map trim).filter (!·.isEmpty)

/-- Whether a failure to read a part makes the whole range malformed. -/
def isReadFailure : Failure → Bool
  | .badValue _ | .malformedNumber | .overflow | .divisionByZero => true
  | _ => false

/-- Reads trimmed text that is not empty. -/
def readRangeChars (read : List Char → Except Failure Value) (cs : List Char) :
    Except Failure Range :=
  match splitDots? cs with
  | some (lower, upper) =>
    match trim lower, trim upper with
    | [], [] => .error .malformedNumber
    | [], upper => (read upper).map .lte
    | lower, [] => (read lower).map .gte
    | lower, upper =>
      match read lower with
      | .error e => .error e
      | .ok lower => (read upper).map (.between lower)
  | none =>
    match cs with
    | '>' :: '=' :: rest => (read rest).map .gte
    | '<' :: '=' :: rest => (read rest).map .lte
    | '>' :: rest => (read rest).map .gt
    | '<' :: rest => (read rest).map .lt
    | _ =>
      if ',' ∈ cs then
        match commaItems cs with
        | [] => .error .malformedNumber
        | items => (items.mapM read).map .among
      else (read cs).map .eq

/-- Reads a range of quantities of a kind. -/
def readRange (read : Reader) (kind value : String) : Except Failure Range :=
  match trim value.toList with
  | [] => .error (.malformedRange value kind)
  | cs =>
    match readRangeChars (fun part => read (String.ofList part)) cs with
    | .ok range => .ok range
    | .error e => .error (if isReadFailure e then .malformedRange value kind else e)

end Imageboard.Query
