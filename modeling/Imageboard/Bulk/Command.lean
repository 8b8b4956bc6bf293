import Imageboard.TagName

/-!
# Commands

A bulk update is a list of commands on aliases, implications, categories and taggings. Each command
has one written form, in which tags stand in their stored spelling.
-/

namespace Imageboard.Bulk

/-- One command of a bulk update. -/
inductive Command where
  | createAlias (antecedent consequent : String)
  | createImplication (antecedent consequent : String)
  | removeAlias (antecedent consequent : String)
  | removeImplication (antecedent consequent : String)
  /-- Replace the tags of the posts that a query selects. -/
  | massUpdate (query replacement : String)
  | changeCategory (tag category : String)
  deriving DecidableEq, Repr

namespace Command

/-- The name of the kind of a command. -/
def kind : Command → String
  | createAlias .. => "create_alias"
  | createImplication .. => "create_implication"
  | removeAlias .. => "remove_alias"
  | removeImplication .. => "remove_implication"
  | massUpdate .. => "mass_update"
  | changeCategory .. => "change_category"

/-- The words that a command begins with in its written form. -/
def keyword : Command → String
  | createAlias .. => "create alias"
  | createImplication .. => "create implication"
  | removeAlias .. => "remove alias"
  | removeImplication .. => "remove implication"
  | massUpdate .. => "mass update"
  | changeCategory .. => "category"

/-- What stands before and what stands after the arrow. -/
def sides : Command → String × String
  | createAlias a c | createImplication a c | removeAlias a c | removeImplication a c => (a, c)
  | massUpdate query replacement => (query, replacement)
  | changeCategory tag category => (tag, category)

/-- The written form of a command. -/
def describe (c : Command) : String :=
  c.keyword ++ " " ++ c.sides.1 ++ " -> " ++ c.sides.2

end Command

/-- A command with the number of its line in the script. -/
structure NumberedCommand where
  command : Command
  lineNumber : Int
  deriving DecidableEq, Repr

end Imageboard.Bulk
