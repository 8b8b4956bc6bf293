import Imageboard.Bulk.Update
import Imageboard.Text.Separated

/-!
# Previews of bulk updates

Before a script is applied, the tags that it names can be listed with their categories and post
counts, together with how many commands it has and how many posts it would change.
-/

namespace Imageboard.Bulk

/-- A tag that a script names. -/
structure AffectedTag where
  name : String
  category : String
  postCount : Int
  deriving DecidableEq, Repr

/-- What is known about a tag; one that does not exist would be general and has no posts. -/
def describeTag (name : String) : Work AffectedTag := do
  let categories := (← get).categories
  match ← Store.getTag name with
  | some tag => return ⟨name, categories.nameOf tag.category, tag.postCount⟩
  | none => return ⟨name, (categories.general?.map (·.name)).getD "", 0⟩

/-- What is known about some tags. -/
def describeTags : List String → Work (List AffectedTag)
  | [] => return []
  | name :: rest => do
    let tag ← describeTag name
    let more ← describeTags rest
    return tag :: more

/-- The tags that a script names. -/
def Update.affected (u : Update) : Work (List AffectedTag) := do
  describeTags (← Work.lift u.affectedTags)

/-- The table of the tags that a script names; there is none if it names no tag. -/
def affectedTable? (tags : List AffectedTag) : Option String :=
  if tags.isEmpty then none
  else some (Text.writeTable Text.Layout.commas (["tag", "category", "post_count"] ::
    tags.map fun t => [t.name, t.category, toString t.postCount]))

/-- The table of the numbers of a script. -/
def summaryTable (commands affected : Nat) (estimate : Int) : String :=
  Text.writeTable Text.Layout.commas
    [["metric", "value"], ["commands", toString commands], ["affected_tags", toString affected],
      ["estimated_update_count", toString estimate]]

/-- The table of the numbers of a script that names some tags. -/
def Update.summary (u : Update) (affected : Nat) : Work String := do
  let commands ← Work.lift u.commands
  return summaryTable commands.length affected (← u.estimate)

end Imageboard.Bulk
