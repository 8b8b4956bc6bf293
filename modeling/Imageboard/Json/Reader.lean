import Imageboard.Json.Basic
import Imageboard.Number.Read

/-!
# Reading structured data

A reader for structured data in the usual notation. Beside it accepts the words for the floating
point numbers that are not finite. Of several fields with one key the last value counts. Malformed
text is told apart from whole numbers with too many digits.
-/

namespace Imageboard.Json

/-- Why text cannot be read. -/
inductive ReadFault where
  | malformed
  | integerTooLong
  deriving DecidableEq, Repr

/-- Whether a character may stand between the parts of structured data. -/
def isSpace (c : Char) : Bool :=
  c = ' ' || c = '\t' || c = '\n' || c = '\r'

/-- Drops the spaces at the front. -/
def skipSpaces (cs : List Char) : List Char :=
  cs.dropWhile isSpace

/-- The value of a hexadecimal digit. -/
def hexValue? (c : Char) : Option Nat :=
  if '0' ≤ c ∧ c ≤ '9' then some (c.toNat - 0x30)
  else if 'a' ≤ c ∧ c ≤ 'f' then some (c.toNat - 0x57)
  else if 'A' ≤ c ∧ c ≤ 'F' then some (c.toNat - 0x37)
  else none

/-- The number that four hexadecimal digits stand for. -/
def hexQuad? : List Char → Option (Nat × List Char)
  | a :: b :: c :: d :: rest =>
    match hexValue? a, hexValue? b, hexValue? c, hexValue? d with
    | some a, some b, some c, some d => some (((a * 16 + b) * 16 + c) * 16 + d, rest)
    | _, _, _, _ => none
  | _ => none

/-- A code point written as a pair of surrogates, if a high one is followed by a low one. -/
def surrogatePair? (high : Nat) (cs : List Char) : Option (Nat × List Char) :=
  match cs with
  | '\\' :: 'u' :: rest =>
    match hexQuad? rest with
    | some (low, rest) =>
      if 0xd800 ≤ high ∧ high < 0xdc00 ∧ 0xdc00 ≤ low ∧ low < 0xe000 then
        some (0x10000 + (high - 0xd800) * 0x400 + (low - 0xdc00), rest)
      else none
    | none => none
  | _ => none

/-- The character that a letter stands for after a backslash. -/
def escaped? : Char → Option Char
  | '"' => some '"'
  | '\\' => some '\\'
  | '/' => some '/'
  | 'b' => some '\x08'
  | 'f' => some '\x0c'
  | 'n' => some '\n'
  | 'r' => some '\r'
  | 't' => some '\t'
  | _ => none

/-- Reads the rest of a text, up to its closing quote; `done` holds what was read, last first. -/
def readText : Nat → List Char → List Char → Option (String × List Char)
  | 0, _, _ => none
  | fuel + 1, done, cs =>
    match cs with
    | [] => none
    | '"' :: rest => some (String.ofList done.reverse, rest)
    | '\\' :: 'u' :: rest =>
      match hexQuad? rest with
      | none => none
      | some (n, rest) =>
        match surrogatePair? n rest with
        | some (n, rest) => readText fuel (Char.ofNat n :: done) rest
        | none => readText fuel (Char.ofNat n :: done) rest
    | '\\' :: c :: rest =>
      match escaped? c with
      | some c => readText fuel (c :: done) rest
      | none => none
    | c :: rest => if c.toNat < 0x20 then none else readText fuel (c :: done) rest

/-- Reads a number that starts here. -/
def readNumber (cs : List Char) : Except ReadFault (Json × List Char) :=
  let (negative, body) := match cs with
    | '-' :: rest => (true, rest)
    | rest => (false, rest)
  let digits := body.takeWhile Char.isDigit
  let whole := if digits.head? = some '0' then ['0'] else digits
  if whole.isEmpty then .error .malformed
  else
    let rest := body.drop whole.length
    let fraction := match rest with
      | '.' :: more => '.' :: more.takeWhile Char.isDigit
      | _ => []
    let fraction := if fraction.length ≤ 1 then [] else fraction
    let rest := rest.drop fraction.length
    let exponent := match rest with
      | e :: more =>
        if e = 'e' ∨ e = 'E' then
          let sign := match more with
            | '+' :: _ => ['+']
            | '-' :: _ => ['-']
            | _ => []
          let places := (more.drop sign.length).takeWhile Char.isDigit
          if places.isEmpty then [] else e :: sign ++ places
        else []
      | [] => []
    let rest := rest.drop exponent.length
    if fraction.isEmpty && exponent.isEmpty then
      if whole.length > maxDigits then .error .integerTooLong
      else
        let n := digitsToNat whole
        .ok (.integer (if negative then -(n : Int) else n), rest)
    else
      match readUnsignedReal? negative (whole ++ fraction ++ exponent) with
      | some x => .ok (.real x, rest)
      | none => .error .malformed

/-- Drops a word from the front. -/
def dropWord? (word cs : List Char) : Option (List Char) :=
  if word.isPrefixOf cs then some (cs.drop word.length) else none

/-- The words that stand for values. -/
def wordValues : List (List Char × Json) :=
  [("null".toList, .null), ("true".toList, .bool true), ("false".toList, .bool false),
   ("NaN".toList, .real .nan), ("Infinity".toList, .real (.infinite false)),
   ("-Infinity".toList, .real (.infinite true))]

/-- Reads a value that is a single word or a number. -/
def readScalar (cs : List Char) : Except ReadFault (Json × List Char) :=
  match wordValues.findSome? fun w => (dropWord? w.1 cs).map (w.2, ·) with
  | some r => .ok r
  | none => readNumber cs

mutual

/-- Reads a value; the fuel bounds the depth and the number of steps. -/
def readValue : Nat → List Char → Except ReadFault (Json × List Char)
  | 0, _ => .error .malformed
  | fuel + 1, cs =>
    match cs with
    | '"' :: rest =>
      match readText (rest.length + 1) [] rest with
      | some (s, rest) => .ok (.text s, rest)
      | none => .error .malformed
    | '[' :: rest =>
      match skipSpaces rest with
      | ']' :: rest => .ok (.list [], rest)
      | rest => readItems fuel [] rest
    | '\x7b' :: rest =>
      match skipSpaces rest with
      | '\x7d' :: rest => .ok (.object [], rest)
      | rest => readFields fuel [] rest
    | cs => readScalar cs

/-- Reads the items of a list from the next one on; `done` holds those before, last first. -/
def readItems : Nat → List Json → List Char → Except ReadFault (Json × List Char)
  | 0, _, _ => .error .malformed
  | fuel + 1, done, cs =>
    match readValue fuel cs with
    | .error e => .error e
    | .ok (item, rest) =>
      match skipSpaces rest with
      | ',' :: rest => readItems fuel (item :: done) (skipSpaces rest)
      | ']' :: rest => .ok (.list (item :: done).reverse, rest)
      | _ => .error .malformed

/-- Reads the fields of an object from the next one on. -/
def readFields : Nat → List (String × Json) → List Char → Except ReadFault (Json × List Char)
  | 0, _, _ => .error .malformed
  | fuel + 1, done, cs =>
    match cs with
    | '"' :: rest =>
      match readText (rest.length + 1) [] rest with
      | none => .error .malformed
      | some (key, rest) =>
        match skipSpaces rest with
        | ':' :: rest =>
          match readValue fuel (skipSpaces rest) with
          | .error e => .error e
          | .ok (value, rest) =>
            let done := put done key value
            match skipSpaces rest with
            | ',' :: rest => readFields fuel done (skipSpaces rest)
            | '\x7d' :: rest => .ok (.object done, rest)
            | _ => .error .malformed
        | _ => .error .malformed
    | _ => .error .malformed

end

/-- Reads a whole text as one value. -/
def read (s : String) : Except ReadFault Json :=
  let cs := skipSpaces s.toList
  match readValue (2 * cs.length + 2) cs with
  | .error e => .error e
  | .ok (value, rest) => if (skipSpaces rest).isEmpty then .ok value else .error .malformed

end Imageboard.Json
