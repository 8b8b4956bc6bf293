import Imageboard.Failure
import Imageboard.Text.LowerCase

/-!
# Tokens of a query

A query is a sequence of tokens separated by blanks. A value may be quoted, but only right after
`key:`, so that a quote anywhere else is an ordinary character; the blanks of a quoted value are
squeezed and the value stays part of its token. The scanner passes over the characters once and
keeps one of three states, so that a query can be read piece by piece.
-/

namespace Imageboard.Query

open Text

/-- What the scanner is in the middle of. -/
inductive Scan where
  /-- Between tokens. -/
  | between
  /-- Inside a token, of which these characters were read. -/
  | token (chars : List Char)
  /-- Inside a quoted value: the token so far, where the quote stands, and the value so far. -/
  | quote (chars : List Char) (start : Nat) (value : List Char)
  deriving DecidableEq, Repr

/-- Whether a quote after these characters opens a quoted value: they are a key and a colon. -/
def opensQuote (chars : List Char) : Bool :=
  match chars.reverse with
  | ':' :: key => !key.isEmpty && key.all fun c => !isBlank c && c != ':' && c != '"'
  | _ => false

/-- Passes over a character inside or before a token. -/
def scanInToken (chars : List Char) (position : Nat) (c : Char) : Scan × List (List Char) :=
  if isBlank c then (.between, if chars.isEmpty then [] else [chars])
  else if c = '"' && opensQuote chars then (.quote chars position [], [])
  else (.token (chars ++ [c]), [])

/-- Passes over the character at a position; the tokens that it completes come with the state. -/
def scanChar (position : Nat) (c : Char) : Scan → Scan × List (List Char)
  | .between => scanInToken [] position c
  | .token chars => scanInToken chars position c
  | .quote chars start value =>
    if c = '"' then (.token (chars ++ trim (squeeze value)), [])
    else (.quote chars start (value ++ [c]), [])

/-- Passes over text that begins at a position. -/
def scan (position : Nat) : Scan → List Char → Scan × List (List Char)
  | state, [] => (state, [])
  | state, c :: rest =>
    let (state, done) := scanChar position c state
    let (final, more) := scan (position + 1) state rest
    (final, done ++ more)

/-- The token that the end of the query completes, or where the open quote stands. -/
def finish : Scan → Except Nat (List (List Char))
  | .between => .ok []
  | .token chars => .ok [chars]
  | .quote _ start _ => .error start

/-- The tokens of a query, or where a quote that is not closed stands. -/
def tokenizeChars (cs : List Char) : Except Nat (List (List Char)) :=
  let (state, tokens) := scan 0 .between cs
  (finish state).map (tokens ++ ·)

/-- The tokens of a query. -/
def tokenize (query : String) : Except Failure (List String) :=
  match tokenizeChars query.toList with
  | .ok tokens => .ok (tokens.map String.ofList)
  | .error position => .error (.unterminatedQuote query position)

/-- The tokens in lower case, joined by spaces. -/
def normalizeTokens (tokens : List String) : String :=
  " ".intercalate (tokens.map lowerString)

/-- A query in the form under which its count is remembered. -/
def normalize (query : String) : Except Failure String :=
  (tokenize query).map normalizeTokens

/-- Reading on after a piece of text is reading the rest from the state that the piece leaves. -/
theorem scan_append (position : Nat) (state : Scan) (p q : List Char) :
    scan position state (p ++ q) =
      ((scan (position + p.length) (scan position state p).1 q).1,
        (scan position state p).2 ++ (scan (position + p.length) (scan position state p).1 q).2) := by
  induction p generalizing position state with
  | nil => simp [scan]
  | cons c rest ih =>
    simp only [List.cons_append, scan, ih, List.length_cons, List.append_assoc]
    rw [Nat.add_assoc, Nat.add_comm 1]

end Imageboard.Query
