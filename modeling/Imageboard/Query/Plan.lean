import Imageboard.Query.Range
import Imageboard.Query.Term

/-!
# Plans

A plan says which posts a query selects and in which order, without reference to a store: the tags
that a post must carry, may not carry, and of which it must carry one; the conditions on its columns
and relations; the order; and the limit.
-/

namespace Imageboard.Query

/-- A quantity or text of a post that a range can constrain. -/
inductive Column where
  | id
  | score
  | favCount
  | imageWidth
  | imageHeight
  | fileSize
  | md5
  | fileExt
  | rating
  | source
  | createdAt
  | createdDate
  | mpixels
  | ratio
  | tagCount
  | categoryTagCount
  deriving DecidableEq, Repr

namespace Column

/-- The name of a column in descriptions. -/
def name : Column → String
  | id => "id"
  | score => "score"
  | favCount => "fav_count"
  | imageWidth => "image_width"
  | imageHeight => "image_height"
  | fileSize => "file_size"
  | md5 => "md5"
  | fileExt => "file_ext"
  | rating => "rating"
  | source => "source"
  | createdAt => "created_at"
  | createdDate => "created_date"
  | mpixels => "mpixels"
  | ratio => "ratio"
  | tagCount => "tag_count"
  | categoryTagCount => "category_tag_count"

/-- All columns. -/
def all : List Column :=
  [id, score, favCount, imageWidth, imageHeight, fileSize, md5, fileExt, rating, source, createdAt,
    createdDate, mpixels, ratio, tagCount, categoryTagCount]

/-- The column with a name. -/
def named (name : String) : Except Failure Column :=
  match all.find? (·.name = name) with
  | some c => .ok c
  | none => .error .unknownColumn

end Column

/-- A yes-or-no property of a post. -/
inductive Flag where
  | pending
  | flagged
  | deleted
  | banned
  | ratingLocked
  | noteLocked
  | statusLocked
  deriving DecidableEq, Repr

namespace Flag

/-- The name of a flag. -/
def name : Flag → String
  | pending => "is_pending"
  | flagged => "is_flagged"
  | deleted => "is_deleted"
  | banned => "is_banned"
  | ratingLocked => "is_rating_locked"
  | noteLocked => "is_note_locked"
  | statusLocked => "is_status_locked"

/-- All flags. -/
def all : List Flag :=
  [pending, flagged, deleted, banned, ratingLocked, noteLocked, statusLocked]

/-- The flag with a name. -/
def named? (name : String) : Option Flag :=
  all.find? (·.name = name)

/-- The flags with some names. -/
def allNamed (names : List String) : Except Failure (List Flag) :=
  match (distinct (names.filter fun n => (named? n).isNone)).mergeSort (· ≤ ·) with
  | [] => .ok (names.filterMap named?)
  | unknown =>
    .error (.badValue ("Unknown flag columns: [" ++
      ", ".intercalate (unknown.map Text.quoted) ++ "]"))

end Flag

/-- How several flags are taken together. -/
inductive Combine where
  | all
  | any
  deriving DecidableEq, Repr

/-- The word between flags. -/
def Combine.word : Combine → String
  | .all => "and"
  | .any => "or"

/-- A connection of a post to users, pools or other posts. -/
inductive Relation where
  | uploader
  | approver
  | fav
  | pool
  | poolCategory
  | parent
  | child
  | upvote
  | downvote
  deriving DecidableEq, Repr

namespace Relation

/-- The name of a relation. -/
def name : Relation → String
  | uploader => "uploader"
  | approver => "approver"
  | fav => "fav"
  | pool => "pool"
  | poolCategory => "pool_category"
  | parent => "parent"
  | child => "child"
  | upvote => "upvote"
  | downvote => "downvote"

/-- All relations. -/
def all : List Relation :=
  [uploader, approver, fav, pool, poolCategory, parent, child, upvote, downvote]

/-- The relation with a name. -/
def named (name : String) : Except Failure Relation :=
  match all.find? (·.name = name) with
  | some r => .ok r
  | none => .error (.badValue ("Unknown relation: " ++ name))

end Relation

/-- A statement about a post. -/
inductive Predicate where
  /-- The column lies in the range; a count of tags by category names the category. -/
  | range (column : Column) (range : Range) (category : Option Int)
  /-- The column in lower case matches a pattern in which `*` stands for any run. -/
  | pattern (column : Column) (pattern : String)
  /-- All, or one, of the flags have the value. -/
  | flags (columns : List Flag) (value : Bool) (combine : Combine)
  /-- The relation holds with the value, where the words `any` and `none` are special. -/
  | relation (relation : Relation) (value : Value)
  /-- Nothing satisfies it, for the stated reason. -/
  | never (reason : String)
  deriving DecidableEq, Repr

/-- The text of a predicate. -/
def Predicate.describe : Predicate → String
  | .range column r category =>
    let index := match category with
      | some code => "[" ++ toString code ++ "]"
      | none => ""
    column.name ++ index ++ ":" ++ r.describe
  | .pattern column text => column.name ++ "~" ++ text
  | .flags columns value combine =>
    (" " ++ combine.word ++ " ").intercalate (columns.map Flag.name) ++ "=" ++
      (if value then "1" else "0")
  | .relation r value => r.name ++ ":" ++ value.describe
  | .never reason => "never(" ++ reason ++ ")"

/-- A predicate or its negation. -/
structure Condition where
  predicate : Predicate
  negated : Bool
  deriving DecidableEq, Repr

/-- The text of a condition. -/
def Condition.describe (c : Condition) : String :=
  (if c.negated then "-" else "") ++ c.predicate.describe

/-- A tag, or the tags whose names match a pattern. -/
structure TagFilter where
  name : String
  wildcard : Bool
  deriving DecidableEq, Repr

/-- What posts are ordered by. -/
inductive OrderKey where
  | id
  | score
  | favcount
  | change
  | mpixels
  | filesize
  | tagcount
  | ratio
  | random
  | custom
  | ordfav
  | ordpool
  /-- The number of tags of a category, by the name of its metatag. -/
  | categoryTags (name : String)
  deriving DecidableEq, Repr

namespace OrderKey

/-- The name of an order. -/
def name : OrderKey → String
  | id => "id"
  | score => "score"
  | favcount => "favcount"
  | change => "change"
  | mpixels => "mpixels"
  | filesize => "filesize"
  | tagcount => "tagcount"
  | ratio => "ratio"
  | random => "random"
  | custom => "custom"
  | ordfav => "ordfav"
  | ordpool => "ordpool"
  | categoryTags name => name

/-- The orders that have a name of their own. -/
def fixed : List OrderKey :=
  [id, score, favcount, change, mpixels, filesize, tagcount, ratio, random, custom, ordfav, ordpool]

/-- The order with a name. -/
def ofName (name : String) : OrderKey :=
  (fixed.find? (·.name = name)).getD (.categoryTags name)

end OrderKey

/-- The direction of an order. -/
inductive Direction where
  | asc
  | desc
  deriving DecidableEq, Repr

/-- The name of a direction. -/
def Direction.name : Direction → String
  | .asc => "asc"
  | .desc => "desc"

/-- An order with the values that it depends on. -/
structure Order where
  key : OrderKey
  direction : Direction
  params : List Value
  deriving DecidableEq, Repr

namespace Order

/-- Newest posts first. -/
def standard : Order := ⟨.id, .desc, []⟩

/-- The text of an order. -/
def describe (o : Order) : String :=
  if o.key = .random then "random" else o.key.name ++ "-" ++ o.direction.name

end Order

/-- What a query selects, and how. -/
structure Plan where
  required : List TagFilter
  negated : List TagFilter
  optional : List TagFilter
  conditions : List Condition
  order : Order
  limit : Option Int
  query : String
  deriving DecidableEq, Repr

namespace Plan

/-- Whether the plan constrains nothing. -/
def isBlank (p : Plan) : Bool :=
  p.required.isEmpty && p.negated.isEmpty && p.optional.isEmpty && p.conditions.isEmpty

/-- The names of some tag filters, sorted. -/
def names (filters : List TagFilter) : List String :=
  (distinct (filters.map (·.name))).mergeSort (· ≤ ·)

end Plan

end Imageboard.Query
