import Imageboard.Failure
import Imageboard.Store.Row
import Imageboard.Store.Table
import Imageboard.Text.LowerCase

/-!
# Contents of a store

What a store holds: a list of records for each table, in the order in which they came, and which
tables are gone. Beside the tables stand the questions that are asked of them and the rules that
their records keep.
-/

namespace Imageboard

/-- The records of all tables, and the tables that do not exist. -/
structure Contents where
  users : List User
  categories : List CategoryRow
  tags : List Tag
  posts : List Post
  taggings : List Tagging
  aliases : List Relationship
  implications : List Relationship
  wikiPages : List WikiPage
  artists : List Artist
  pools : List Pool
  poolPosts : List PoolPost
  favorites : List Favorite
  votes : List Vote
  cachedCounts : List CachedCount
  missing : List Table
  deriving DecidableEq, Repr

/-- The two kinds of relationship between tags. -/
inductive RelationshipKind where
  | alias
  | implication
  deriving DecidableEq, Repr

/-- The table of a kind of relationship. -/
def RelationshipKind.table : RelationshipKind → Table
  | .alias => .aliases
  | .implication => .implications

namespace Contents

/-- All tables, without records. -/
def empty : Contents :=
  ⟨[], [], [], [], [], [], [], [], [], [], [], [], [], [], []⟩

/-- No table at all. -/
def blank : Contents :=
  { empty with missing := Table.all }

/-- Whether a table exists. -/
def has (c : Contents) (t : Table) : Bool :=
  !c.missing.contains t

/-- The id of the next record of a table that has records with the given ids. -/
def nextId : List Int → Int
  | [] => 1
  | id :: ids => ids.foldl max id + 1

/-- The rows of a table, cell by cell. -/
def rows (c : Contents) : Table → List (List Value)
  | .users => c.users.map User.cells
  | .categories => c.categories.map CategoryRow.cells
  | .tags => c.tags.map Tag.cells
  | .posts => c.posts.map Post.cells
  | .taggings => c.taggings.map Tagging.cells
  | .aliases => c.aliases.map Relationship.cells
  | .implications => c.implications.map Relationship.cells
  | .wikiPages => c.wikiPages.map WikiPage.cells
  | .artists => c.artists.map Artist.cells
  | .pools => c.pools.map Pool.cells
  | .poolPosts => c.poolPosts.map PoolPost.cells
  | .favorites => c.favorites.map Favorite.cells
  | .votes => c.votes.map Vote.cells
  | .countCache => c.cachedCounts.map CachedCount.cells

/-! ## Questions -/

/-- The user with a name, up to the case of ASCII letters. -/
def findUser? (c : Contents) (name : String) : Option User :=
  c.users.find? fun u => Text.foldAscii u.name = Text.foldAscii name

/-- The tag with a name. -/
def findTag? (c : Contents) (name : String) : Option Tag :=
  c.tags.find? (·.name = name)

/-- The tag with an id. -/
def tagWithId? (c : Contents) (id : Int) : Option Tag :=
  c.tags.find? (·.id = id)

/-- The post with an id. -/
def findPost? (c : Contents) (id : Int) : Option Post :=
  c.posts.find? (·.id = id)

/-- The ids of the tags of a post. -/
def tagIdsOf (c : Contents) (postId : Int) : List Int :=
  (c.taggings.filter (·.postId = postId)).map (·.tagId)

/-- The tags of a post. -/
def tagsOf (c : Contents) (postId : Int) : List Tag :=
  (c.tagIdsOf postId).filterMap c.tagWithId?

/-- The ids of the posts that carry a tag, sorted. -/
def postIdsWith (c : Contents) (tagId : Int) : List Int :=
  ((c.taggings.filter (·.tagId = tagId)).map (·.postId)).mergeSort (· ≤ ·)

/-- The number of posts that carry a tag. -/
def taggingCount (c : Contents) (tagId : Int) : Int :=
  (c.taggings.countP (·.tagId = tagId) : Nat)

/-- The relationships of a kind. -/
def relationships (c : Contents) : RelationshipKind → List Relationship
  | .alias => c.aliases
  | .implication => c.implications

/-- The relationships of a kind that are in force, in order of their ids. -/
def activeRelationships (c : Contents) (kind : RelationshipKind) : List Relationship :=
  ((c.relationships kind).filter (·.status = .active)).mergeSort fun a b => a.id ≤ b.id

/-- The record with the largest id. -/
def latest? : List Relationship → Option Relationship
  | [] => none
  | r :: rest =>
    match latest? rest with
    | some s => if s.id > r.id then some s else some r
    | none => some r

/-- What a name stands for, if an alias of it is in force. -/
def aliasOf? (c : Contents) (name : String) : Option String :=
  (latest? (c.aliases.filter fun r => r.antecedent = name ∧ r.status = .active)).map (·.consequent)

/-! ## Changes -/

/-- Replaces the relationships of a kind. -/
def withRelationships (c : Contents) (kind : RelationshipKind) (rs : List Relationship) :
    Contents :=
  match kind with
  | .alias => { c with aliases := rs }
  | .implication => { c with implications := rs }

/-- Changes the tags that satisfy a condition. -/
def mapTags (c : Contents) (p : Tag → Bool) (f : Tag → Tag) : Contents :=
  { c with tags := c.tags.map fun t => if p t then f t else t }

/-- Changes the posts that satisfy a condition. -/
def mapPosts (c : Contents) (p : Post → Bool) (f : Post → Post) : Contents :=
  { c with posts := c.posts.map fun q => if p q then f q else q }

/-! ## Rules -/

/-- Whether a reference points to a user. -/
def refersToUser (c : Contents) (id : Int) : Bool :=
  c.users.any (·.id = id)

/-- Whether a reference points to a post. -/
def refersToPost (c : Contents) (id : Int) : Bool :=
  c.posts.any (·.id = id)

/-- Whether a reference points to a tag. -/
def refersToTag (c : Contents) (id : Int) : Bool :=
  c.tags.any (·.id = id)

/-- Whether a reference points to a pool. -/
def refersToPool (c : Contents) (id : Int) : Bool :=
  c.pools.any (·.id = id)

/-- Whether the references of a post point to records. -/
def postRefers (c : Contents) (p : Post) : Bool :=
  p.parentId.all c.refersToPost && p.uploaderId.all c.refersToUser &&
    p.approverId.all c.refersToUser

/-- Whether the references of a tagging point to records. -/
def taggingRefers (c : Contents) (t : Tagging) : Bool :=
  c.refersToPost t.postId && c.refersToTag t.tagId

/-- Whether the references of a place in a pool point to records. -/
def poolPostRefers (c : Contents) (p : PoolPost) : Bool :=
  c.refersToPool p.poolId && c.refersToPost p.postId

/-- Whether the references of a favourite point to records. -/
def favoriteRefers (c : Contents) (f : Favorite) : Bool :=
  c.refersToUser f.userId && c.refersToPost f.postId

/-- Whether the references of a vote point to records. -/
def voteRefers (c : Contents) (v : Vote) : Bool :=
  c.refersToPost v.postId && c.refersToUser v.userId

/-- Whether all references point to records. -/
def refers (c : Contents) : Bool :=
  c.posts.all c.postRefers && c.taggings.all c.taggingRefers && c.poolPosts.all c.poolPostRefers &&
    c.favorites.all c.favoriteRefers && c.votes.all c.voteRefers

/-- The changed contents, refused unless the condition holds. -/
def requireReferences (ok : Bool) (c : Contents) : Except StoreFault Contents :=
  if ok then .ok c else .error .foreignKey

/-- The names of the rules on a kind of relationship: its status, and that it is not to itself. -/
def statusRule : RelationshipKind → String
  | .alias => "ck_alias_status"
  | .implication => "ck_implication_status"

/-- The name of the rule that a relationship is not to itself. -/
def notSelfRule : RelationshipKind → String
  | .alias => "ck_alias_not_self"
  | .implication => "ck_implication_not_self"

/-- The columns that are one among the relationships in force. -/
def activeKey : RelationshipKind → String
  | .alias => "TAG_ALIASES.antecedent_name"
  | .implication => "TAG_IMPLICATIONS.antecedent_name, TAG_IMPLICATIONS.consequent_name"

/-- Whether two relationships in force exclude each other. -/
def clashes (kind : RelationshipKind) (r s : Relationship) : Bool :=
  r.id ≠ s.id && r.status = .active && s.status = .active && r.antecedent = s.antecedent &&
    (kind = .alias || r.consequent = s.consequent)

/-- Checks a record against the rules of its kind and against the other records. -/
def checkRelationship (kind : RelationshipKind) (others : List Relationship) (r : Relationship) :
    Except StoreFault Unit :=
  if r.antecedent = r.consequent then .error (.check (notSelfRule kind))
  else if others.any (clashes kind r) then .error (.unique (activeKey kind))
  else .ok ()

/-- Changes the relationships that satisfy a condition, one after the other, each checked. -/
def updateRelationships (kind : RelationshipKind) (p : Relationship → Bool)
    (f : Relationship → Relationship) :
    List Relationship → List Relationship → Except StoreFault (List Relationship)
  | done, [] => .ok done
  | done, r :: rest =>
    if p r then
      match checkRelationship kind (done ++ rest) (f r) with
      | .error e => .error e
      | .ok () => updateRelationships kind p f (done ++ [f r]) rest
    else updateRelationships kind p f (done ++ [r]) rest

/-- The ratings that a post can have. -/
def ratings : List String := ["s", "q", "e"]

/-- The categories that a pool can have. -/
def poolCategories : List String := ["series", "collection"]

end Contents

end Imageboard
