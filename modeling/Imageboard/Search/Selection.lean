import Imageboard.Query.Statement
import Imageboard.Search.Condition
import Imageboard.Store.Basic

/-!
# Selecting posts

A plan is carried out on a store: the posts that it selects, or places in a pool when these give the
order, are put in order, and a page of them is returned. Of the statement that the plan is written as only
the parameters are used: they must fit where they are bound, and the tables must exist.
-/

namespace Imageboard.Search

open Query

/-- A row that a plan draws from: a post, and its place if the rows are the places of a pool. -/
structure Row where
  post : Post
  place : Option Int
  deriving DecidableEq, Repr

/-- The places of the pool that a value names, with their posts. -/
def poolRows (c : Contents) (name : Value) : List Row :=
  c.poolPosts.filterMap fun e =>
    if c.pools.any fun o =>
        o.id = e.poolId && (textOf? name).any fun n => Text.foldAscii o.name = Text.foldAscii n then
      (c.findPost? e.postId).map (⟨·, some e.position⟩)
    else none

/-- The rows that a plan draws from. -/
def sourceRows (c : Contents) (plan : Plan) : List Row :=
  if plan.order.key = .ordpool then poolRows c (plan.order.params.headD .null)
  else c.posts.map (⟨·, none⟩)

/-- The rows that a plan selects. -/
def selectedRows (c : Contents) (plan : Plan) : List Row :=
  (sourceRows c plan).filter fun r => selects c plan r.post

/-- The largest of some numbers. -/
def largest? : List Int → Option Int
  | [] => none
  | n :: ns => some (ns.foldl max n)

/-- The place of the first value that is equal to an id. -/
def placeIn (id : Int) (vs : List Value) : Value :=
  match vs.findIdx? fun v => (Value.compare? (.integer id) v) == some .eq with
  | some i => .integer i
  | none => .null

/-- The values that rows are ordered by, the most significant first, with their directions. -/
def sortKeys (c : Contents) (o : Order) (r : Row) : List (Value × Direction) :=
  let p := r.post
  let by' (v : Value) : List (Value × Direction) :=
    [(v, o.direction), (.integer p.id, o.direction)]
  match o.key with
  | .id => [(.integer p.id, o.direction)]
  | .score => by' (.integer p.score)
  | .favcount => by' (.integer p.favCount)
  | .change => by' p.updatedAt
  | .mpixels => by' (mpixels p)
  | .filesize => by' (.integer p.fileSize)
  | .tagcount => by' (.integer (tagCount c p))
  | .ratio => by' (ratio p)
  | .random => []
  | .custom => [(placeIn p.id o.params, .asc)]
  | .ordfav =>
    let user := o.params.headD .null
    let favorites := c.favorites.filter fun f => f.postId = p.id && isOfUser c user f.userId
    [(.ofInteger? (largest? (favorites.map (·.id))), .desc), (.integer p.id, .desc)]
  | .ordpool => [(.ofInteger? r.place, .asc)]
  | .categoryTags _ =>
    let category := match o.params with
      | .integer code :: _ => some code
      | _ => none
    by' (.integer (categoryTagCount c p category))

/-- How two lists of keys are ordered. -/
def orderKeys : List (Value × Direction) → List (Value × Direction) → Ordering
  | (x, d) :: xs, (y, _) :: ys =>
    match if d = .asc then x.order y else y.order x with
    | .eq => orderKeys xs ys
    | o => o
  | _, _ => .eq

/-- The rows in the order of a plan. -/
def sortRows (c : Contents) (o : Order) (rows : List Row) : List Row :=
  ((rows.map fun r => (sortKeys c o r, r)).mergeSort fun a b =>
    orderKeys a.1 b.1 != .gt).map (·.2)

/-- The rows from an offset on, as many as a limit says; a negative limit is none. -/
def page {α : Type} (limit offset : Int) (rows : List α) : List α :=
  let rest := rows.drop offset.toNat
  if limit < 0 then rest else rest.take limit.toNat

/-- The ids of the posts on a page of what a plan selects. -/
def selectedIds (c : Contents) (plan : Plan) (limit : Option Int) (offset : Int) : List Int :=
  (page (plan.effectiveLimit limit) offset
    (sortRows c plan.order (selectedRows c plan))).map (·.post.id)

/-- The number of rows that a plan selects. -/
def selectedCount (c : Contents) (plan : Plan) : Int :=
  (selectedRows c plan).length

/-! ## The tables of a statement, in the order in which they occur -/

/-- The tables of a tag filter. -/
def filterTables : List Table := [.taggings, .tags]

/-- The tables of a column. -/
def columnTables : Column → List Table
  | .tagCount => [.taggings]
  | .categoryTagCount => [.taggings, .tags]
  | _ => []

/-- The tables of a relation. -/
def relationTables (value : Value) : Relation → List Table
  | .uploader | .approver => if (anyOrNone? value).isSome then [] else [.users]
  | .fav => [.favorites, .users]
  | .upvote | .downvote => [.votes, .users]
  | .pool | .poolCategory => [.poolPosts, .pools]
  | .parent => []
  | .child => [.posts]

/-- The tables of a predicate. -/
def predicateTables : Predicate → List Table
  | .range column _ _ | .pattern column _ => columnTables column
  | .flags .. | .never _ => []
  | .relation r value => relationTables value r

/-- The tables of what a plan draws from and requires. -/
def sourceTables (plan : Plan) : List Table :=
  (if plan.order.key = .ordpool then [.posts, .poolPosts, .pools] else [.posts]) ++
    (plan.required ++ plan.optional ++ plan.negated).flatMap (fun _ => filterTables) ++
    plan.conditions.flatMap fun k => predicateTables k.predicate

/-- The tables of an order. -/
def orderTables (o : Order) : List Table :=
  match o.key with
  | .ordfav => [.favorites, .users]
  | .tagcount => [.taggings]
  | .categoryTags _ => [.taggings, .tags]
  | _ => []

/-- A failure of the store while a query runs. -/
def asQueryFailure : Failure → Failure
  | .store cause => .execution .querying cause none
  | f => f

/-- Runs a query; a failure of the store says that it was a query. -/
def run {α : Type} (tables : List Table) (params : List Value) (f : Contents → α) : Work α :=
  Work.adapt asQueryFailure (Work.read tables params f)

/-- The ids of the posts that a plan selects, in order. -/
def selectPostIds (plan : Plan) (limit : Option Int) (offset : Int) : Work (List Int) := do
  let statement ← Work.lift (plan.selectStatement limit offset)
  run (sourceTables plan ++ orderTables plan.order) statement.params fun c =>
    selectedIds c plan limit offset

/-- The number of rows that a plan selects. -/
def countPosts (plan : Plan) : Work Int := do
  let statement ← Work.lift plan.countStatement
  run (sourceTables plan) statement.params fun c => selectedCount c plan

end Imageboard.Search
