import Imageboard.Store.Basic
import Imageboard.TagName

/-!
# Pools, favourites and votes

A pool is a sequence of posts. A user favours a post once and has one vote on it; the post keeps the
number of those who favour it and the sum of its votes.
-/

namespace Imageboard

namespace Contents

/-- Adds a pool without posts. -/
def addPool (name category : String) (c : Contents) : Except StoreFault (Int × Contents) :=
  if !poolCategories.contains category then .error (.check "ck_pool_category")
  else if c.pools.any fun p => Text.foldAscii p.name = Text.foldAscii name then
    .error (.unique "POOLS.name")
  else
    let id := nextId (c.pools.map (·.id))
    .ok (id, { c with pools := c.pools ++ [⟨id, name, category, 0⟩] })

/-- Puts a post at a place in a pool. -/
def addPoolPost (p : PoolPost) (c : Contents) : Except StoreFault (Unit × Contents) :=
  if c.poolPosts.any fun q => q.poolId = p.poolId && q.position = p.position then
    .error (.unique "POOL_POSTS.pool_id, POOL_POSTS.position")
  else
    let after := { c with poolPosts := c.poolPosts ++ [p] }
    (requireReferences (after.poolPostRefers p) after).map ((), ·)

/-- Adds a favourite that is not there yet, and says whether it did. -/
def addFavorite (userId postId : Int) (stamp : Value) (c : Contents) :
    Except StoreFault (Bool × Contents) :=
  if c.favorites.any fun f => f.userId = userId && f.postId = postId then .ok (false, c)
  else
    let f : Favorite := ⟨nextId (c.favorites.map (·.id)), userId, postId, stamp⟩
    let after := { c with favorites := c.favorites ++ [f] }
    (requireReferences (after.favoriteRefers f) after).map (true, ·)

/-- Counts one more user who favours a post. -/
def countFavorite (postId : Int) (c : Contents) : Contents :=
  c.mapPosts (·.id = postId) fun p => { p with favCount := p.favCount + 1 }

/-- Sets the vote of a user on a post. -/
def setVote (postId userId score : Int) (stamp : Value) (c : Contents) :
    Except StoreFault (Unit × Contents) :=
  let v : Vote := ⟨postId, userId, score, stamp⟩
  let others := c.votes.filter fun w => !(w.postId = postId && w.userId = userId)
  let after := { c with votes := others ++ [v] }
  (requireReferences (after.voteRefers v) after).map ((), ·)

/-- The sum of some scores, unless a sum on the way is too large. -/
def sumScores? : Int → List Int → Option Int
  | sum, [] => some sum
  | sum, score :: rest =>
    if (Value.integer (sum + score)).fits then sumScores? (sum + score) rest else none

/-- The scores that a post was given, in order of the voters. -/
def scoresOf (c : Contents) (postId : Int) : List Int :=
  ((c.votes.filter (·.postId = postId)).mergeSort fun v w => v.userId ≤ w.userId).map (·.score)

/-- Sets the score of a post to the sum of its votes. -/
def tallyVotes (postId : Int) (c : Contents) : Except StoreFault (Unit × Contents) :=
  if c.posts.any (·.id = postId) then
    match sumScores? 0 (c.scoresOf postId) with
    | some sum => .ok ((), c.mapPosts (·.id = postId) fun p => { p with score := sum })
    | none => .error .sumOverflow
  else .ok ((), c)

end Contents

namespace Store

open Work

/-- Puts posts at the places of a pool from a place on. -/
def fillPool (poolId : Int) : Int → List Int → Work Unit
  | _, [] => return ()
  | position, postId :: rest => do
    writeReferring .poolPosts [.integer poolId, .integer postId, .integer position]
      (Contents.addPoolPost ⟨poolId, postId, position⟩)
    fillPool poolId (position + 1) rest

/-- Makes a pool of posts and returns its id. -/
def createPool (name : String) (postIds : List Int) (category : String) : Work Int :=
  atomic do
    let id ← write [.pools] [] (Contents.addPool (TagName.normalize name) category)
    requireTables [.poolPosts]
    requireParents .poolPosts
    fillPool id 0 postIds
    return id

/-- Lets a user favour a post. -/
def addFavorite (userId postId : Int) : Work Unit :=
  atomic do
    let stamp := (← get).stamp
    let added ← writeReferring .favorites [.integer userId, .integer postId]
      (Contents.addFavorite userId postId stamp)
    if added then
      write [.posts] [.integer postId] fun c => .ok ((), c.countFavorite postId)

/-- Lets a user vote on a post. -/
def addVote (userId postId score : Int) : Work Unit :=
  atomic do
    let stamp := (← get).stamp
    writeReferring .votes [.integer postId, .integer userId, .integer score]
      (Contents.setVote postId userId score stamp)
    write [.posts, .votes] [.integer postId] (Contents.tallyVotes postId)

end Store

end Imageboard
