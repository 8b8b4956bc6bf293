import Imageboard.Bulk.Command
import Imageboard.Failure

/-!
# Scripts

A script has one command per line. A line begins with one of the keywords of its command, in any
letter case, and has an arrow between two sides. Tags are single words; the query of a mass update
may have several. The rules are tried in order, so that a keyword with two meanings changes the
category of a single word and replaces tags otherwise.
-/

namespace Imageboard.Bulk

open Text

/-- Whether a character stands for a lower case letter of a keyword. -/
def standsFor (letter c : Char) : Bool :=
  c = letter || c.toLower = letter ||
    (letter = 'i' && (c = 'İ' || c = 'ı')) ||
    (letter = 'k' && c.toNat = 0x212a) || (letter = 's' && c = 'ſ')

/-- Drops a keyword, in any letter case, from the front. -/
def dropKeyword? : List Char → List Char → Option (List Char)
  | [], cs => some cs
  | letter :: keyword, c :: cs => if standsFor letter c then dropKeyword? keyword cs else none
  | _ :: _, [] => none

/-- The arrow between the sides. -/
def arrow : List Char := [' ', '-', '>', ' ']

/-- Drops some characters from the front. -/
def dropFront? : List Char → List Char → Option (List Char)
  | [], cs => some cs
  | a :: front, c :: cs => if a = c then dropFront? front cs else none
  | _ :: _, [] => none

/-- Splits two words with an arrow between them. -/
def splitWords? (cs : List Char) : Option (List Char × List Char) :=
  let first := cs.takeWhile fun c => !isBlank c
  match first, dropFront? arrow (cs.dropWhile fun c => !isBlank c) with
  | _ :: _, some second =>
    if second.isEmpty || second.any isBlank then none else some (first, second)
  | _, _ => none

/-- Splits at the first arrow that has something before it. -/
def splitArrow? (before : List Char) : List Char → Option (List Char × List Char)
  | [] => none
  | c :: rest =>
    match if before.isEmpty then none else dropFront? arrow (c :: rest) with
    | some after => some (before.reverse, after)
    | none => splitArrow? (c :: before) rest

/-- Splits two texts of one line with an arrow between them. -/
def splitTexts? (cs : List Char) : Option (List Char × List Char) :=
  if '\n' ∈ cs then none else splitArrow? [] cs

/-- What a rule makes of the two sides. -/
inductive Shape where
  /-- Two words. -/
  | words (build : String → String → Command)
  /-- Two texts. -/
  | texts (build : String → String → Command)

/-- The keywords of a rule, longest first, and what it reads. -/
structure Rule where
  keywords : List String
  shape : Shape

/-- A command on two tags. -/
def tagPair (build : String → String → Command) : Shape :=
  .words fun a c => build (TagName.normalize a) (TagName.normalize c)

/-- The rules in the order in which they are tried. -/
def grammar : List Rule :=
  [⟨["create alias", "aliasing", "alias"], tagPair .createAlias⟩,
   ⟨["create implication", "implicating", "implicate", "imply"], tagPair .createImplication⟩,
   ⟨["remove alias", "unaliasing", "unalias"], tagPair .removeAlias⟩,
   ⟨["remove implication", "unimplicating", "unimplicate", "unimply"],
     tagPair .removeImplication⟩,
   ⟨["change category", "category", "change"],
     .words fun tag category => .changeCategory (TagName.normalize tag) (lowerString category)⟩,
   ⟨["mass update", "updating", "update", "change"],
     .texts fun query replacement =>
       .massUpdate (String.ofList (trim query.toList)) (String.ofList (trim replacement.toList))⟩]

/-- Reads what follows a keyword and a space. -/
def Shape.read? (cs : List Char) : Shape → Option Command
  | .words build =>
    (splitWords? cs).map fun s => build (String.ofList s.1) (String.ofList s.2)
  | .texts build =>
    (splitTexts? cs).map fun s => build (String.ofList s.1) (String.ofList s.2)

/-- Reads a line by a rule: the first keyword that leads to a command counts. -/
def Rule.read? (cs : List Char) (rule : Rule) : Option Command :=
  rule.keywords.findSome? fun keyword =>
    (dropKeyword? (keyword.toList ++ [' ']) cs).bind rule.shape.read?

/-- A line without the line feed that may end it. -/
def withoutLineFeed (cs : List Char) : List Char :=
  if cs.getLast? = some '\n' then cs.dropLast else cs

/-- Reads one line. -/
def readLine (line : String) (lineNumber : Int) : Except Failure NumberedCommand :=
  match grammar.findSome? (Rule.read? (withoutLineFeed line.toList)) with
  | some command => .ok ⟨command, lineNumber⟩
  | none => .error (.unreadableLine line lineNumber)

/-- Cuts text at its line ends; a carriage return with a line feed is one line end. -/
def lines : List Char → List (List Char)
  | [] => [[]]
  | '\r' :: '\n' :: rest => [] :: lines rest
  | '\r' :: rest => [] :: lines rest
  | '\n' :: rest => [] :: lines rest
  | c :: rest =>
    match lines rest with
    | [] => [[c]]
    | line :: more => (c :: line) :: more

/-- Reads the lines from a number on, passing over blank ones. -/
def readLines : Int → List (List Char) → Except Failure (List NumberedCommand)
  | _, [] => .ok []
  | n, line :: rest =>
    match trim (squeeze line) with
    | [] => readLines (n + 1) rest
    | cs =>
      match readLine (String.ofList cs) n with
      | .error e => .error e
      | .ok command => (readLines (n + 1) rest).map (command :: ·)

/-- Reads a script; one unreadable line makes the whole script unreadable. -/
def readScript (text : String) : Except Failure (List NumberedCommand) :=
  readLines 1 (lines text.toList)

end Imageboard.Bulk
