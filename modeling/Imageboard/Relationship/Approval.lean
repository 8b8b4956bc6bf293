import Imageboard.Relationship.Rules

/-!
# Approving and rejecting relationships

An approved alias takes the place of its antecedent everywhere: in other aliases, in implications,
on posts, and if wanted in the titles of pages. An approved implication puts its consequent, and
what that implies, on the posts of its antecedent.
-/

namespace Imageboard.Relationship

open Store

/-- The kinds of page that can be renamed. -/
inductive PageKind where
  | wikiPage
  | artist
  deriving DecidableEq, Repr

/-- The name of a kind of page. -/
def PageKind.name : PageKind → String
  | .wikiPage => "wiki_page"
  | .artist => "artist"

/-- Renames a page of some kind unless the new name is taken, and says whether it did. -/
def renameIfFree (pageExists : String → Work Bool) (rename : String → String → Work Bool)
    (oldName newName : String) : Work Bool := do
  if ← pageExists oldName then
    if ← pageExists newName then return false
    else rename oldName newName
  else return false

/-- Renames the wiki page and the artist of a tag, and returns what was renamed. -/
def renamePages (oldName newName : String) : Work (List PageKind) := do
  let wiki ← renameIfFree wikiPageExists renameWikiPage oldName newName
  let artist ← renameIfFree artistExists renameArtist oldName newName
  return (if wiki then [.wikiPage] else []) ++ if artist then [.artist] else []

/-- Puts an alias in force and returns the number of posts whose tags it changed. -/
def approveAlias (r : Relationship) (approverId : Option Int) (withPages : Bool) : Work Int := do
  setRelationshipStatus .alias r.id "active" approverId
  let antecedent ← findOrCreateTag r.antecedent none
  let consequent ← findOrCreateTag r.consequent none
  let _ ← retargetAliases r.antecedent r.consequent
  let _ ← moveImplications r.antecedent r.consequent
  let general := (← get).categories.generalCode
  if antecedent.category ≠ general ∧ consequent.category = general then
    setTagCategory consequent.id antecedent.category
  let count ← replaceTagOnPosts r.antecedent r.consequent
  if withPages then
    let _ ← renamePages r.antecedent r.consequent
  return count

/-- Puts an implication in force and returns the number of posts that it applies to. -/
def approveImplication (r : Relationship) (approverId : Option Int) : Work Int := do
  setRelationshipStatus .implication r.id "active" approverId
  let _ ← findOrCreateTag r.antecedent none
  let _ ← findOrCreateTag r.consequent none
  let g ← implicationGraph
  addTagsToPostsWith r.antecedent (r.consequent :: g.implied r.consequent)

/-- Takes a relationship out of force. -/
def reject (kind : RelationshipKind) (r : Relationship) : Work Unit :=
  setRelationshipStatus kind r.id "rejected" none

end Imageboard.Relationship
