/-!
# Patterns

A pattern is a list of atoms: a run of any characters, any single character, one given character, or
one of a class of characters. Three notations are read into atoms. Glob patterns have `*`, `?` and
classes in brackets; like patterns have `%` and `_`, an escape character, and ignore the case of
ASCII letters; shell patterns have the atoms of glob patterns, but other rules for classes. A name with
wildcards is escaped before it is put into a glob or a like pattern.
-/

namespace Imageboard.Text

/-- A part of a pattern. -/
inductive Atom where
  /-- Any run of characters. -/
  | anyRun
  /-- Any one character. -/
  | anyOne
  /-- One given character. -/
  | exactly (c : Char)
  /-- One character inside, or outside, some inclusive ranges. -/
  | oneOf (negated : Bool) (ranges : List (Char × Char))
  deriving DecidableEq, Repr

/-- Whether an atom for one character accepts it; `same` says which characters count as equal. -/
def Atom.accepts (same : Char → Char → Bool) (c : Char) : Atom → Bool
  | .anyRun => false
  | .anyOne => true
  | .exactly d => same d c
  | .oneOf negated ranges => ranges.any (fun r => r.1 ≤ c && c ≤ r.2) != negated

/-- Whether the atoms cover the text. -/
def covers (same : Char → Char → Bool) : List Atom → List Char → Bool
  | [], cs => cs.isEmpty
  | .anyRun :: atoms, [] => covers same atoms []
  | .anyRun :: atoms, c :: cs => covers same atoms (c :: cs) || covers same (.anyRun :: atoms) cs
  | atom :: atoms, c :: cs => atom.accepts same c && covers same atoms cs
  | _ :: _, [] => false
termination_by atoms cs => atoms.length + cs.length

/-- Text up to its first null character, which ends it where patterns are compared. -/
def beforeNull (cs : List Char) : List Char :=
  cs.takeWhile (·.toNat != 0)

/-- Reads a class up to its closing bracket, with the character that could begin a range. -/
def readClass :
    Option Char → List (Char × Char) → List Char → Option (List (Char × Char) × List Char)
  | _, _, [] => none
  | _, ranges, ']' :: rest => some (ranges, rest)
  | some first, ranges, '-' :: last :: rest =>
    if last = ']' then some (ranges ++ [('-', '-')], rest)
    else readClass none (ranges ++ [(first, last)]) rest
  | _, ranges, c :: rest => readClass (some c) (ranges ++ [(c, c)]) rest

/-- Reads a class after its opening bracket. -/
def readGlobClass (cs : List Char) : Option (Atom × List Char) :=
  let (negated, body) := match cs with
    | '^' :: rest => (true, rest)
    | rest => (false, rest)
  match body with
  | ']' :: rest => (readClass none [(']', ']')] rest).map fun r => (.oneOf negated r.1, r.2)
  | rest => (readClass none [] rest).map fun r => (.oneOf negated r.1, r.2)

/-- Reads a glob pattern; a class without an end has no atoms. The fuel bounds the atoms. -/
def readGlob : Nat → List Char → Option (List Atom)
  | _, [] => some []
  | 0, _ => none
  | fuel + 1, '*' :: rest => (readGlob fuel rest).map (.anyRun :: ·)
  | fuel + 1, '?' :: rest => (readGlob fuel rest).map (.anyOne :: ·)
  | fuel + 1, '[' :: rest =>
    match readGlobClass rest with
    | some (atom, rest) => (readGlob fuel rest).map (atom :: ·)
    | none => none
  | fuel + 1, c :: rest => (readGlob fuel rest).map (.exactly c :: ·)

/-- Whether text matches a glob pattern. -/
def globMatches (pattern text : List Char) : Bool :=
  let pattern := beforeNull pattern
  match readGlob pattern.length pattern with
  | some atoms => covers (· == ·) atoms (beforeNull text)
  | none => false

/-- Reads a like pattern whose escape character is the backslash. -/
def readLike : List Char → Option (List Atom)
  | [] => some []
  | '%' :: rest => (readLike rest).map (.anyRun :: ·)
  | '_' :: rest => (readLike rest).map (.anyOne :: ·)
  | '\\' :: c :: rest => (readLike rest).map (.exactly c :: ·)
  | ['\\'] => none
  | c :: rest => (readLike rest).map (.exactly c :: ·)

/-- Whether two characters are equal up to the case of ASCII letters. -/
def sameFolded (c d : Char) : Bool :=
  c.toLower == d.toLower

/-- Whether text matches a like pattern. -/
def likeMatches (pattern text : List Char) : Bool :=
  match readLike (beforeNull pattern) with
  | some atoms => covers sameFolded atoms (beforeNull text)
  | none => false

/-- A glob pattern in which opening brackets stand for themselves. -/
def escapeGlob (pattern : List Char) : List Char :=
  pattern.flatMap fun c => if c = '[' then ['[', '[', ']'] else [c]

/-- A like pattern for a text in which `*` alone is special. -/
def escapeLike (pattern : List Char) : List Char :=
  pattern.flatMap fun c =>
    if c = '*' then ['%'] else if c = '\\' ∨ c = '%' ∨ c = '_' then ['\\', c] else [c]

/-- Cuts the inside of a shell class at the hyphens that make ranges; `skip` characters, kept last
first in `piece`, cannot be such a hyphen. -/
def classPieces : Nat → List Char → List Char → List (List Char)
  | _, piece, [] => [piece.reverse]
  | 0, piece, '-' :: rest => piece.reverse :: classPieces 2 [] rest
  | skip, piece, c :: rest => classPieces (skip - 1) (c :: piece) rest

/-- A hyphen at the very end of a class stands for itself. -/
def closePieces (pieces : List (List Char)) : List (List Char) :=
  match pieces.reverse with
  | [] :: piece :: before => ((piece ++ ['-']) :: before).reverse
  | _ => pieces

/-- Joins the last pieces while the range between them is empty, dropping its ends. -/
def dropEmptyRanges : List (List Char) → List (List Char)
  | [] => []
  | piece :: rest =>
    match piece.getLast?, dropEmptyRanges rest with
    | some a, (b :: more) :: others =>
      if b < a then (piece.dropLast ++ more) :: others else piece :: (b :: more) :: others
    | _, others => piece :: others

/-- The ranges that the pieces of a class stand for. -/
def pieceRanges : List (List Char) → List (Char × Char)
  | [] => []
  | [piece] => piece.map fun c => (c, c)
  | piece :: next :: rest =>
    let between := match piece.getLast?, next.head? with
      | some a, some b => [(a, b)]
      | _, _ => []
    piece.map (fun c => (c, c)) ++ between ++ pieceRanges (next :: rest)

/-- The class that the inside of a shell class stands for. -/
def shellClass (inside : List Char) : Atom :=
  let skip := if inside.head? = some '!' then 2 else 1
  match dropEmptyRanges (closePieces (classPieces skip [] inside)) with
  | ('!' :: piece) :: rest => .oneOf true (pieceRanges (piece :: rest))
  | pieces => .oneOf false (pieceRanges pieces)

/-- The inside of a shell class and what follows it, if the class has an end. -/
def splitShellClass (cs : List Char) : Option (List Char × List Char) :=
  let mark := match cs with
    | '!' :: ']' :: _ => 2
    | '!' :: _ => 1
    | ']' :: _ => 1
    | _ => 0
  let inside := cs.take mark ++ (cs.drop mark).takeWhile (· != ']')
  match cs.drop inside.length with
  | _ :: rest => some (inside, rest)
  | [] => none

/-- Reads a shell pattern; a bracket without an end stands for itself. -/
def readShell : Nat → List Char → List Atom
  | _, [] => []
  | 0, _ => []
  | fuel + 1, '*' :: rest => .anyRun :: readShell fuel rest
  | fuel + 1, '?' :: rest => .anyOne :: readShell fuel rest
  | fuel + 1, '[' :: rest =>
    match splitShellClass rest with
    | some (inside, rest) => shellClass inside :: readShell fuel rest
    | none => .exactly '[' :: readShell fuel rest
  | fuel + 1, c :: rest => .exactly c :: readShell fuel rest

/-- Whether text matches a shell pattern. -/
def shellMatches (pattern text : List Char) : Bool :=
  covers (· == ·) (readShell pattern.length pattern) text

end Imageboard.Text
