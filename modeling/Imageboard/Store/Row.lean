import Imageboard.Number.Binary64
import Imageboard.Value

/-!
# Records

The records of the store, one structure for each kind. Times are values, because a column of times
also accepts numbers; switches are integers, of which zero is off.
-/

namespace Imageboard

/-- A registered user; names are one up to the case of ASCII letters. -/
structure User where
  id : Int
  name : String
  createdAt : Value
  deriving DecidableEq, Repr

/-- A category as the store lists it. -/
structure CategoryRow where
  code : Int
  name : String
  shortName : String
  deriving DecidableEq, Repr

/-- A tag with its category and the number of posts that it is believed to be on. -/
structure Tag where
  id : Int
  name : String
  category : Int
  postCount : Int
  createdAt : Value
  updatedAt : Value
  deriving DecidableEq, Repr

/-- A post. -/
structure Post where
  id : Int
  md5 : Option String
  rating : String
  source : String
  fileExt : String
  fileSize : Int
  imageWidth : Int
  imageHeight : Int
  score : Int
  favCount : Int
  parentId : Option Int
  uploaderId : Option Int
  approverId : Option Int
  isPending : Int
  isFlagged : Int
  isDeleted : Int
  isBanned : Int
  isRatingLocked : Int
  isNoteLocked : Int
  isStatusLocked : Int
  createdAt : Value
  updatedAt : Value
  deriving DecidableEq, Repr

/-- A tag on a post. -/
structure Tagging where
  postId : Int
  tagId : Int
  deriving DecidableEq, Repr

/-- How far an alias or an implication has come. -/
inductive Status where
  | pending
  | active
  | rejected
  deriving DecidableEq, Repr

namespace Status

/-- The word for a status. -/
def name : Status → String
  | pending => "pending"
  | active => "active"
  | rejected => "rejected"

/-- The status with a name. -/
def named? (name : String) : Option Status :=
  [pending, active, rejected].find? (·.name = name)

end Status

/-- An alias or an implication between two tag names. -/
structure Relationship where
  id : Int
  antecedent : String
  consequent : String
  status : Status
  forumTopicId : Option Int
  creatorId : Option Int
  approverId : Option Int
  createdAt : Value
  updatedAt : Value
  deriving DecidableEq, Repr

/-- A wiki page. -/
structure WikiPage where
  id : Int
  title : String
  body : String
  isDeleted : Int
  updatedAt : Value
  deriving DecidableEq, Repr

/-- An artist. -/
structure Artist where
  id : Int
  name : String
  isActive : Int
  updatedAt : Value
  deriving DecidableEq, Repr

/-- A pool of posts; names are one up to the case of ASCII letters. -/
structure Pool where
  id : Int
  name : String
  category : String
  isDeleted : Int
  deriving DecidableEq, Repr

/-- A post at a place in a pool. -/
structure PoolPost where
  poolId : Int
  postId : Int
  position : Int
  deriving DecidableEq, Repr

/-- A post that a user favours. -/
structure Favorite where
  id : Int
  userId : Int
  postId : Int
  createdAt : Value
  deriving DecidableEq, Repr

/-- What a user gives for a post. -/
structure Vote where
  postId : Int
  userId : Int
  score : Int
  createdAt : Value
  deriving DecidableEq, Repr

/-- A count that is remembered until it expires. -/
structure CachedCount where
  key : String
  count : Int
  expiresAt : Binary64
  deriving DecidableEq, Repr

/-! ## The cells of a record, in the order of the columns -/

/-- The cells of a user. -/
def User.cells (r : User) : List Value :=
  [.integer r.id, .text r.name, r.createdAt]

/-- The cells of a category. -/
def CategoryRow.cells (r : CategoryRow) : List Value :=
  [.integer r.code, .text r.name, .text r.shortName]

/-- The cells of a tag. -/
def Tag.cells (r : Tag) : List Value :=
  [.integer r.id, .text r.name, .integer r.category, .integer r.postCount, r.createdAt,
    r.updatedAt]

/-- The cells of a post. -/
def Post.cells (r : Post) : List Value :=
  [.integer r.id, .ofText? r.md5, .text r.rating, .text r.source, .text r.fileExt,
    .integer r.fileSize, .integer r.imageWidth, .integer r.imageHeight, .integer r.score,
    .integer r.favCount, .ofInteger? r.parentId, .ofInteger? r.uploaderId,
    .ofInteger? r.approverId, .integer r.isPending, .integer r.isFlagged, .integer r.isDeleted,
    .integer r.isBanned, .integer r.isRatingLocked, .integer r.isNoteLocked,
    .integer r.isStatusLocked, r.createdAt, r.updatedAt]

/-- The cells of a tagging. -/
def Tagging.cells (r : Tagging) : List Value :=
  [.integer r.postId, .integer r.tagId]

/-- The cells of a relationship. -/
def Relationship.cells (r : Relationship) : List Value :=
  [.integer r.id, .text r.antecedent, .text r.consequent, .text r.status.name,
    .ofInteger? r.forumTopicId, .ofInteger? r.creatorId, .ofInteger? r.approverId, r.createdAt,
    r.updatedAt]

/-- The cells of a wiki page. -/
def WikiPage.cells (r : WikiPage) : List Value :=
  [.integer r.id, .text r.title, .text r.body, .integer r.isDeleted, r.updatedAt]

/-- The cells of an artist. -/
def Artist.cells (r : Artist) : List Value :=
  [.integer r.id, .text r.name, .integer r.isActive, r.updatedAt]

/-- The cells of a pool. -/
def Pool.cells (r : Pool) : List Value :=
  [.integer r.id, .text r.name, .text r.category, .integer r.isDeleted]

/-- The cells of a place in a pool. -/
def PoolPost.cells (r : PoolPost) : List Value :=
  [.integer r.poolId, .integer r.postId, .integer r.position]

/-- The cells of a favourite. -/
def Favorite.cells (r : Favorite) : List Value :=
  [.integer r.id, .integer r.userId, .integer r.postId, r.createdAt]

/-- The cells of a vote. -/
def Vote.cells (r : Vote) : List Value :=
  [.integer r.postId, .integer r.userId, .integer r.score, r.createdAt]

/-- The cells of a remembered count. -/
def CachedCount.cells (r : CachedCount) : List Value :=
  [.text r.key, .integer r.count, .real r.expiresAt]

end Imageboard
