import Imageboard.Calendar.Timestamp
import Imageboard.Query.Plan
import Imageboard.Search.Truth
import Imageboard.Store.Contents
import Imageboard.Text.Pattern

/-!
# Conditions on posts

What the conditions of a plan say about a post of the store. Values that are missing make a
condition unknown, as they do in the statements that plans are written as. The meaning is given to the
parts of the plan, side by side with their texts in `Query.Statement`.
-/

namespace Imageboard.Search

open Query

/-- Whether two values compare in one of some ways. -/
def comparesAs (orderings : List Ordering) (x y : Value) : Truth :=
  (x.compare? y).map orderings.contains

/-- Whether a value is one of some values. -/
def isAmong (x : Value) : List Value → Truth
  | [] => some false
  | vs => Truth.any (vs.map (comparesAs [.eq] x))

/-- Whether a value lies in a range. -/
def inRange (x : Value) : Range → Truth
  | .eq v => comparesAs [.eq] x v.bound
  | .lt v => comparesAs [.lt] x v.bound
  | .lte v => comparesAs [.lt, .eq] x v.bound
  | .gt v => comparesAs [.gt] x v.bound
  | .gte v => comparesAs [.gt, .eq] x v.bound
  | .between lower upper =>
    (comparesAs [.gt, .eq] x lower.bound).and (comparesAs [.lt, .eq] x upper.bound)
  | .among vs => isAmong x (vs.map Value.bound)

/-- The product of two integers, floating if it is too large. -/
def product (m n : Int) : Binary64 :=
  if (Value.integer (m * n)).fits then .ofInt (m * n)
  else (Binary64.ofInt m).mul (.ofInt n)

/-- The size of a post in megapixels. -/
def mpixels (p : Post) : Value :=
  .real ((product p.imageWidth p.imageHeight).div (.ofInt 1000000))

/-- The width of a post by its height, to two places with a half going up; there is none for a post
of height zero. -/
def ratio (p : Post) : Value :=
  if p.imageHeight = 0 then .null
  else
    .real (((Binary64.ofInt p.imageWidth).div (.ofInt p.imageHeight)).roundHundredths roundDivUp)

/-- The number of tags on a post. -/
def tagCount (c : Contents) (p : Post) : Int :=
  (c.tagIdsOf p.id).length

/-- The number of tags of a category on a post. -/
def categoryTagCount (c : Contents) (p : Post) (category : Option Int) : Int :=
  ((c.tagsOf p.id).countP fun t => some t.category = category : Nat)

/-- The value of a column for a post. -/
def columnValue (c : Contents) (p : Post) (category : Option Int) : Column → Value
  | .id => .integer p.id
  | .score => .integer p.score
  | .favCount => .integer p.favCount
  | .imageWidth => .integer p.imageWidth
  | .imageHeight => .integer p.imageHeight
  | .fileSize => .integer p.fileSize
  | .md5 => .ofText? p.md5
  | .fileExt => .text p.fileExt
  | .rating => .text p.rating
  | .source => .text p.source
  | .createdAt => p.createdAt
  | .createdDate => Timestamp.day p.createdAt
  | .mpixels => mpixels p
  | .ratio => ratio p
  | .tagCount => .integer (tagCount c p)
  | .categoryTagCount => .integer (categoryTagCount c p category)

/-- Whether a value in lower case matches a pattern in which `*` stands for any run. -/
def matchesPattern (pattern : String) : Value → Truth
  | .null => none
  | v => some (Text.likeMatches (Text.escapeLike pattern.toList)
      (Text.foldAscii v.describe).toList)

/-- The value of a flag of a post. -/
def flagValue (p : Post) : Flag → Int
  | .pending => p.isPending
  | .flagged => p.isFlagged
  | .deleted => p.isDeleted
  | .banned => p.isBanned
  | .ratingLocked => p.isRatingLocked
  | .noteLocked => p.isNoteLocked
  | .statusLocked => p.isStatusLocked

/-- Whether a flag of a post has a value. -/
def flagIs (p : Post) (value : Bool) (flag : Flag) : Truth :=
  some (flagValue p flag = if value then 1 else 0)

/-- The word that a value is, if it is one of the special words. -/
def anyOrNone? : Value → Option Bool
  | .text "any" => some true
  | .text "none" => some false
  | _ => none

/-- The text of a value. -/
def textOf? : Value → Option String
  | .text s => some s
  | _ => none

/-- The id of the user that a value names. -/
def userIdOf (c : Contents) (value : Value) : Value :=
  .ofInteger? (((textOf? value).bind c.findUser?).map (·.id))

/-- Whether a user of a post is the one that a value names, or whether there is one. -/
def userIs (c : Contents) (userId : Option Int) (value : Value) : Truth :=
  match anyOrNone? value with
  | some wanted => some (userId.isSome = wanted)
  | none => comparesAs [.eq] (.ofInteger? userId) (userIdOf c value)

/-- Whether a record belongs to the user that a value names. -/
def isOfUser (c : Contents) (value : Value) (userId : Int) : Bool :=
  c.users.any fun u =>
    u.id = userId && (textOf? value).any fun n => Text.foldAscii u.name = Text.foldAscii n

/-- Whether a post is in a pool that is not deleted and satisfies a condition. -/
def inPool (c : Contents) (p : Post) (wanted : Pool → Bool) : Bool :=
  c.poolPosts.any fun e => e.postId = p.id &&
    c.pools.any fun o => o.id = e.poolId && o.isDeleted = 0 && wanted o

/-- Whether a post has children. -/
def hasChild (c : Contents) (p : Post) : Bool :=
  c.posts.any (·.parentId = some p.id)

/-- Whether a user has voted on a post with a score of some sign. -/
def hasVote (c : Contents) (p : Post) (value : Value) (wanted : Int → Bool) : Bool :=
  c.votes.any fun v => v.postId = p.id && wanted v.score && isOfUser c value v.userId

/-- Whether a relation of a post holds. -/
def related (c : Contents) (p : Post) (value : Value) : Relation → Truth
  | .uploader => userIs c p.uploaderId value
  | .approver => userIs c p.approverId value
  | .fav => some (c.favorites.any fun f => f.postId = p.id && isOfUser c value f.userId)
  | .upvote => some (hasVote c p value (0 < ·))
  | .downvote => some (hasVote c p value (· < 0))
  | .pool =>
    match anyOrNone? value with
    | some wanted => some (inPool c p (fun _ => true) = wanted)
    | none =>
      some (inPool c p fun o =>
        Text.globMatches (Text.escapeGlob value.describe.toList) o.name.toList)
  | .poolCategory => some (inPool c p fun o => textOf? value = some o.category)
  | .parent =>
    match anyOrNone? value with
    | some wanted => some (p.parentId.isSome = wanted)
    | none =>
      (comparesAs [.eq] (.ofInteger? p.parentId) value).or (comparesAs [.eq] (.integer p.id) value)
  | .child => some (hasChild c p = (value = .text "any"))

/-- What a predicate says about a post. -/
def truthOf (c : Contents) (p : Post) : Predicate → Truth
  | .range column r category => inRange (columnValue c p category column) r
  | .pattern column pattern => matchesPattern pattern (columnValue c p none column)
  | .flags columns value .all => Truth.all (columns.map (flagIs p value))
  | .flags columns value .any => Truth.any (columns.map (flagIs p value))
  | .relation r value => related c p value r
  | .never _ => some false

/-- What a condition says about a post. -/
def conditionTruth (c : Contents) (p : Post) (k : Condition) : Truth :=
  if k.negated then (truthOf c p k.predicate).not else truthOf c p k.predicate

/-- Whether a tag has the name, or matches the pattern, of a filter. -/
def nameMatches (f : TagFilter) (t : Tag) : Bool :=
  if f.wildcard then Text.globMatches (Text.escapeGlob f.name.toList) t.name.toList
  else t.name = f.name

/-- Whether a post carries a tag that a filter accepts. -/
def carries (c : Contents) (p : Post) (f : TagFilter) : Bool :=
  (c.tagsOf p.id).any (nameMatches f)

/-- What a plan says about a post. -/
def planTruth (c : Contents) (plan : Plan) (p : Post) : Truth :=
  Truth.all (plan.required.map (fun f => some (carries c p f)) ++
    (if plan.optional.isEmpty then []
      else [Truth.any (plan.optional.map fun f => some (carries c p f))]) ++
    plan.negated.map (fun f => some (!carries c p f)) ++
    plan.conditions.map (conditionTruth c p))

/-- Whether a plan selects a post. -/
def selects (c : Contents) (plan : Plan) (p : Post) : Bool :=
  (planTruth c plan p).holds

end Imageboard.Search
