import Imageboard.Relationship.Rules
import Imageboard.Search.Searcher

/-!
# Mass updates

A job replaces tags on the posts that a query selects: the tags named in the query come off, those
named in the replacement go on together with what they imply. A tag that goes on does not come off.
-/

namespace Imageboard.Bulk

open Query (Term distinct)

/-- Whoever a job is done for. -/
def viewerOf (job : Job) : Viewer :=
  .user job.actorId job.actorName

/-- The tags that a replacement takes off and those that it puts on. -/
structure TagChanges where
  removals : List String
  additions : List String
  deriving DecidableEq, Repr

/-- What the plain tags among some terms stand for, with whether they are excluded. -/
def resolveTags : List Term → SearchWork (List (Bool × String))
  | [] => return []
  | t :: rest => do
    if t.kind = .tag then
      let name ← Searcher.resolve t.name
      let more ← resolveTags rest
      return (t.polarity = .negated, name) :: more
    else resolveTags rest

/-- Adds what some tags imply behind them. -/
def withImplied (g : Relationship.Graph) (names : List String) : List String :=
  names ++ names.flatMap g.implied

/-- The tags that a job takes off and those that it puts on. -/
def tagChanges (config : Config) (job : Job) : SearchWork TagChanges := do
  let queryTerms ← SearchWork.lift (Query.terms config job.query)
  let named ← resolveTags queryTerms
  let replacementTerms ← SearchWork.lift (Query.terms config job.replacement)
  let replacing ← resolveTags replacementTerms
  let excluded := (replacing.filter (·.1)).map (·.2)
  let wanted := (replacing.filter (!·.1)).map (·.2)
  let g ← SearchWork.ofWork Relationship.implicationGraph
  let expanded := withImplied g wanted
  let removals := (distinct (named.map (·.2) ++ excluded)).filter fun n => !expanded.contains n
  return ⟨removals, distinct expanded⟩

/-- Changes the tags of some posts. -/
def retag (changes : TagChanges) : List Int → Work Unit
  | [] => return ()
  | postId :: rest => do
    let _ ← Store.removePostTags postId changes.removals
    let _ ← Store.addPostTags postId changes.additions
    retag changes rest

/-- Does a job in a transaction of its own and returns the number of posts. -/
def perform (config : Config) (job : Job) : SearchWork Int := do
  let plan ← Searcher.compile config (viewerOf job) job.query
  let changes ← tagChanges config job
  SearchWork.ofWork (Work.inTransaction fun _ => do
    let postIds ← Search.selectPostIds plan none 0
    retag changes postIds
    return (postIds.length : Int))

/-- The number of posts that a mass update would change. -/
def estimateMassUpdate (config : Config) (viewer : Viewer) (query : String) : Work Int :=
  (Searcher.count config viewer query).onStore

end Imageboard.Bulk
