import Imageboard.Query.Token
import Imageboard.TagName

/-!
# Terms of a query

A token is read as a term: a mark in front says whether it is required, excluded or optional, and
what follows is a tag, a tag pattern, a metatag with its value, or an order. Metatags and orders are
told by their names before the first colon; an order is always required and a metatag never
optional.
-/

namespace Imageboard.Query

/-- How a term takes part in the selection. -/
inductive Polarity where
  | required
  | negated
  | optional
  deriving DecidableEq, Repr

/-- What a term is. -/
inductive TermKind where
  | tag
  | wildcard
  | metatag
  | order
  deriving DecidableEq, Repr

/-- A token as read. -/
structure Term where
  kind : TermKind
  polarity : Polarity
  /-- The stored spelling of the tag, the pattern, or the name of the metatag in lower case. -/
  name : String
  /-- The value of a metatag or an order. -/
  value : Option String
  /-- The token itself. -/
  raw : String
  deriving DecidableEq, Repr

namespace Term

/-- Whether the term stands for tags. -/
def isTag (t : Term) : Bool :=
  t.kind = .tag || t.kind = .wildcard

/-- What makes two terms the same: everything but the token. -/
def key (t : Term) : TermKind × Polarity × String × Option String :=
  (t.kind, t.polarity, t.name, t.value)

end Term

/-- Splits the polarity mark off a token; a lone mark is part of the tag. -/
def splitPolarity : List Char → Polarity × List Char
  | '-' :: c :: rest => (.negated, c :: rest)
  | '~' :: c :: rest => (.optional, c :: rest)
  | cs => (.required, cs)

/-- Splits text at its first colon into two parts that are not empty. -/
def splitKey? (cs : List Char) : Option (List Char × List Char) :=
  match cs.takeWhile (· != ':'), cs.dropWhile (· != ':') with
  | c :: key, _ :: d :: value => some (c :: key, d :: value)
  | _, _ => none

/-- The term for the part of a token after its polarity mark, taken as a tag. -/
def tagTerm (polarity : Polarity) (body : List Char) (raw : String) : Term :=
  let name := TagName.normalizeChars body
  ⟨if '*' ∈ name then .wildcard else .tag, polarity, String.ofList name, none, raw⟩

/-- Reads a token, given the names of the metatags. -/
def classifyToken (metatags : List String) (token : String) : Term :=
  let (polarity, body) := splitPolarity token.toList
  match splitKey? body with
  | none => tagTerm polarity body token
  | some (key, value) =>
    let name := String.ofList (Text.lower key)
    if name = "order" then
      ⟨.order, .required, "order", some (String.ofList (Text.lower value)), token⟩
    else if name ∈ metatags then
      let polarity := if polarity = .optional then .required else polarity
      ⟨.metatag, polarity, name, some (String.ofList value), token⟩
    else tagTerm polarity body token

/-- Reads all tokens. -/
def classify (metatags : List String) (tokens : List String) : List Term :=
  tokens.map (classifyToken metatags)

/-- Keeps the first of the items with each key. -/
def firstOfEach {α β : Type} [BEq β] (key : α → β) : List β → List α → List α
  | _, [] => []
  | seen, x :: rest =>
    if seen.contains (key x) then firstOfEach key seen rest
    else x :: firstOfEach key (key x :: seen) rest

/-- The items without repetitions, in order of first occurrence. -/
def distinct {α : Type} [BEq α] (xs : List α) : List α :=
  firstOfEach id [] xs

/-- The terms of a query without repetitions. -/
def distinctTerms (metatags : List String) (tokens : List String) : List Term :=
  firstOfEach Term.key [] (classify metatags tokens)

/-- The names of the tags in a query, without polarity marks and repetitions. -/
def scanTags (metatags : List String) (tokens : List String) : List String :=
  distinct (((classify metatags tokens).filter (·.kind = .tag)).map
    fun t => TagName.withoutPolarity t.name)

end Imageboard.Query
