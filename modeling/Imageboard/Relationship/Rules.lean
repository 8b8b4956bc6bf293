import Imageboard.Config
import Imageboard.Relationship.Graph
import Imageboard.Store.Pages
import Imageboard.Store.Relationships
import Imageboard.Store.Tagging

/-!
# Rules for new relationships

Why an alias or an implication may not be created. A tag is not related to itself; aliases do not
form chains and do not join tags of different categories; implications do not repeat what is implied
already, do not form cycles and are not on aliased tags. Where a board wants it, the tags also need
wiki pages and the antecedent of an alias a number of posts.
-/

namespace Imageboard

/-- The graph of the implications in force. -/
def Contents.implicationGraph (c : Contents) : Relationship.Graph :=
  ⟨(c.activeRelationships .implication).map fun r => (r.antecedent, r.consequent)⟩

namespace Relationship

open Store

/-- The graph of the implications in force. -/
def implicationGraph : Work Graph := do
  return ⟨(← activeRelationships .implication).map fun r => (r.antecedent, r.consequent)⟩

/-- The category of a tag; one that does not exist would be general. -/
def categoryOf (name : String) : Work Int := do
  match ← getTag name with
  | some tag => return tag.category
  | none => return (← get).categories.generalCode

/-- The post count of a tag; one that does not exist has none. -/
def postCountOf (name : String) : Work Int := do
  match ← getTag name with
  | some tag => return tag.postCount
  | none => return 0

/-- What is said about a tag without a wiki page. -/
def missingPage (name : String) : String :=
  "The " ++ name ++ " tag needs a corresponding wiki page"

/-- What is said about an alias of a tag with too few posts. -/
def tooFewPosts (name : String) (minimum : Int) : String :=
  "The " ++ name ++ " tag must have at least " ++ toString minimum ++
    " posts for an alias to be created"

/-- A message if a condition holds. -/
def sayIf (condition : Bool) (message : String) : List String :=
  if condition then [message] else []

/-- The messages about the tags that have no wiki page. -/
def pageErrors : List String → Work (List String)
  | [] => return []
  | name :: rest => do
    let found ← wikiPageExists name
    let more ← pageErrors rest
    return sayIf (!found) (missingPage name) ++ more

/-- The messages about wiki pages and posts that an alias needs. -/
def secondaryAliasErrors (antecedent consequent : String) (config : Config) :
    Work (List String) := do
  let pages ← pageErrors [consequent]
  let count ← postCountOf antecedent
  return pages ++ sayIf (count < config.minimumAliasPostCount)
    (tooFewPosts antecedent config.minimumAliasPostCount)

/-- Why an alias may not be created; nothing if it may. -/
def aliasErrors (antecedent consequent : String) (config : Config) (skipSecondary : Bool) :
    Work (List String) := do
  if antecedent = consequent then return ["Cannot alias a tag to itself"]
  let existing ← activeAliasConsequent antecedent
  let next ← activeAliasConsequent consequent
  let chained := match existing with
    | some target => [antecedent ++ " is already aliased to " ++ target]
    | none => []
  let categories := (← get).categories
  let general := categories.generalCode
  let first ← categoryOf antecedent
  let second ← categoryOf consequent
  let apart := first ≠ general && second ≠ general && first ≠ second
  let secondary ←
    if skipSecondary then pure [] else secondaryAliasErrors antecedent consequent config
  return chained ++ sayIf next.isSome ("A tag alias for " ++ consequent ++ " already exists") ++
    sayIf apart ("Cannot alias tags of different categories (" ++ categories.nameOf first ++
      " -> " ++ categories.nameOf second ++ ")") ++ secondary

/-- The message about an implication that is there or follows from others. -/
def redundancyErrors (g : Graph) (antecedent consequent : String) : List String :=
  if (g.successors antecedent).contains consequent then
    ["Implication " ++ antecedent ++ " -> " ++ consequent ++ " already exists"]
  else if (g.implied antecedent).contains consequent then
    [antecedent ++ " already implies " ++ consequent ++ " through another implication"]
  else []

/-- Why an implication may not be created; nothing if it may. -/
def implicationErrors (antecedent consequent : String) (skipSecondary : Bool) :
    Work (List String) := do
  if antecedent = consequent then return ["Cannot implicate a tag to itself"]
  let g ← implicationGraph
  let first ← activeAliasConsequent antecedent
  let second ← activeAliasConsequent consequent
  let secondary ← if skipSecondary then pure [] else pageErrors [antecedent, consequent]
  return redundancyErrors g antecedent consequent ++
    sayIf ((g.implied consequent).contains antecedent)
      "Tag implication can not create a circular relation with another tag implication" ++
    sayIf first.isSome
      ("Antecedent tag must not be aliased to another tag (" ++ antecedent ++ ")") ++
    sayIf second.isSome
      ("Consequent tag must not be aliased to another tag (" ++ consequent ++ ")") ++ secondary

/-- Refuses a request that breaks rules. -/
def refuseIfAny (errors : List String) (request : String) : Work Unit :=
  if errors.isEmpty then pure () else throw (.invalid errors (some request))

/-- Creates an alias that waits for approval. -/
def createAlias (antecedent consequent : String) (config : Config)
    (forumTopicId creatorId : Option Int) (skipSecondary : Bool) : Work Relationship := do
  refuseIfAny (← aliasErrors antecedent consequent config skipSecondary)
    ("create alias " ++ antecedent ++ " -> " ++ consequent)
  insertRelationship .alias antecedent consequent "pending" forumTopicId creatorId

/-- Creates an implication that waits for approval. -/
def createImplication (antecedent consequent : String) (forumTopicId creatorId : Option Int)
    (skipSecondary : Bool) : Work Relationship := do
  refuseIfAny (← implicationErrors antecedent consequent skipSecondary)
    ("create implication " ++ antecedent ++ " -> " ++ consequent)
  insertRelationship .implication antecedent consequent "pending" forumTopicId creatorId

end Relationship

end Imageboard
