import Imageboard.Store.Basic
import Imageboard.TagName

/-!
# Users, tags and posts

The work that makes users, tags and posts and puts tags on posts. Tags are made when they are first
used. Each change of a tagging changes the post count of its tag along, and a post whose tags
changed is stamped.
-/

namespace Imageboard

open Work

/-- What a new post is made of. -/
structure PostDraft where
  id : Option Int := none
  md5 : Option String := none
  rating : String := "q"
  source : String := ""
  fileExt : String := "jpg"
  fileSize : Int := 0
  imageWidth : Int := 0
  imageHeight : Int := 0
  score : Int := 0
  favCount : Int := 0
  parentId : Option Int := none
  uploaderId : Option Int := none
  approverId : Option Int := none
  isPending : Int := 0
  isFlagged : Int := 0
  isDeleted : Int := 0
  isBanned : Int := 0
  isRatingLocked : Int := 0
  isNoteLocked : Int := 0
  isStatusLocked : Int := 0
  /-- When the post was made; without it, now. -/
  createdAt : Option Value := none
  /-- When the post was changed last; without it, now. -/
  updatedAt : Option Value := none
  deriving DecidableEq, Repr

namespace PostDraft

/-- The post with an id and a present time stamp. -/
def toPost (d : PostDraft) (id : Int) (stamp : Value) : Post where
  id := id
  md5 := d.md5
  rating := d.rating
  source := d.source
  fileExt := d.fileExt
  fileSize := d.fileSize
  imageWidth := d.imageWidth
  imageHeight := d.imageHeight
  score := d.score
  favCount := d.favCount
  parentId := d.parentId
  uploaderId := d.uploaderId
  approverId := d.approverId
  isPending := d.isPending
  isFlagged := d.isFlagged
  isDeleted := d.isDeleted
  isBanned := d.isBanned
  isRatingLocked := d.isRatingLocked
  isNoteLocked := d.isNoteLocked
  isStatusLocked := d.isStatusLocked
  createdAt := (d.createdAt.getD stamp).inTimeColumn
  updatedAt := (d.updatedAt.getD stamp).inTimeColumn

/-- The draft with both times set. -/
def createdOn (d : PostDraft) (time : Option String) : PostDraft :=
  match time with
  | some t => { d with createdAt := some (.text t), updatedAt := some (.text t) }
  | none => d

end PostDraft

namespace Contents

/-- Adds a user. -/
def addUser (name : String) (stamp : Value) (c : Contents) : Except StoreFault (Int × Contents) :=
  if c.users.any fun u => Text.foldAscii u.name = Text.foldAscii name then
    .error (.unique "USERS.name")
  else
    let id := nextId (c.users.map (·.id))
    .ok (id, { c with users := c.users ++ [⟨id, name, stamp⟩] })

/-- Adds a tag without posts. -/
def addTag (name : String) (category : Int) (stamp : Value) (c : Contents) :
    Except StoreFault (Tag × Contents) :=
  if c.tags.any (·.name = name) then .error (.unique "TAGS.name")
  else
    let tag : Tag := ⟨nextId (c.tags.map (·.id)), name, category, 0, stamp, stamp⟩
    .ok (tag, { c with tags := c.tags ++ [tag] })

/-- Adds a post. -/
def addPost (d : PostDraft) (stamp : Value) (c : Contents) : Except StoreFault (Int × Contents) :=
  let id := d.id.getD (nextId (c.posts.map (·.id)))
  let post := d.toPost id stamp
  if !ratings.contains post.rating then .error (.check "ck_rating")
  else if c.posts.any (·.id = id) then .error (.unique "POSTS.post_id")
  else
    let after := { c with posts := c.posts ++ [post] }
    (requireReferences (after.postRefers post) after).map (id, ·)

/-- Adds a tagging that is not there yet, and says whether it did. -/
def addTagging (t : Tagging) (c : Contents) : Except StoreFault (Bool × Contents) :=
  if c.taggings.contains t then .ok (false, c)
  else
    let after := { c with taggings := c.taggings ++ [t] }
    (requireReferences (after.taggingRefers t) after).map (true, ·)

/-- Removes a tagging, and says whether it was there. -/
def removeTagging (t : Tagging) (c : Contents) : Bool × Contents :=
  (c.taggings.contains t, { c with taggings := c.taggings.filter (· ≠ t) })

/-- Puts a tag on all posts that carry another one. -/
def copyTaggings (source target : Int) (c : Contents) : Except StoreFault Contents :=
  let fresh := ((c.postIdsWith source).map (⟨·, target⟩)).filter fun t => !c.taggings.contains t
  let after := { c with taggings := c.taggings ++ fresh }
  requireReferences (fresh.all after.taggingRefers) after

/-- Counts the posts of some tags anew. -/
def recount (ids : List Int) (stamp : Value) (c : Contents) : Contents :=
  c.mapTags (fun t => ids.contains t.id) fun t =>
    { t with postCount := c.taggingCount t.id, updatedAt := stamp }

/-- Whether the post count of a tag is wrong. -/
def isMiscounted (c : Contents) (t : Tag) : Bool :=
  t.postCount ≠ c.taggingCount t.id

/-- Counts the posts of all tags anew. -/
def recountAll (c : Contents) : Contents :=
  c.mapTags c.isMiscounted fun t => { t with postCount := c.taggingCount t.id }

/-- Stamps some posts as changed. -/
def touch (ids : List Int) (stamp : Value) (c : Contents) : Contents :=
  c.mapPosts (fun p => ids.contains p.id) fun p => { p with updatedAt := stamp }

end Contents

/-- The integers and times of a draft that a statement must accept. -/
def PostDraft.bound (d : PostDraft) : List Value :=
  [.ofInteger? d.id, .integer d.fileSize, .integer d.imageWidth, .integer d.imageHeight,
    .integer d.score, .integer d.favCount, .ofInteger? d.parentId, .ofInteger? d.uploaderId,
    .ofInteger? d.approverId, .integer d.isPending, .integer d.isFlagged, .integer d.isDeleted,
    .integer d.isBanned, .integer d.isRatingLocked, .integer d.isNoteLocked,
    .integer d.isStatusLocked, d.createdAt.getD .null, d.updatedAt.getD .null]

namespace Store

/-! ## Users -/

/-- The id of the user with a name. -/
def findUser (name : String) : Work (Option Int) :=
  read [.users] [] fun c => (c.findUser? name).map (·.id)

/-- The id of the user with a name, who is registered if there is none. -/
def findOrCreateUser (name : String) : Work Int := do
  match ← findUser name with
  | some id => return id
  | none =>
    let stamp := (← get).stamp
    write [.users] [] (Contents.addUser name stamp)

/-! ## Tags -/

/-- The tag with a name. -/
def getTag (name : String) : Work (Option Tag) :=
  read [.tags] [] fun c => c.findTag? name

/-- The tag with a name, which is made if there is none, general unless a category is given. -/
def findOrCreateTag (name : String) (category : Option Int) : Work Tag := do
  let name := TagName.normalize name
  if name.isEmpty then throw (.badValue "Tag name must not be blank")
  match ← getTag name with
  | some tag => return tag
  | none =>
    let s ← get
    let code := category.getD s.categories.generalCode
    write [.tags] [.integer code] (Contents.addTag name code s.stamp)

/-- Changes the category of a tag. -/
def setTagCategory (tagId category : Int) : Work Unit := do
  let stamp := (← get).stamp
  write [.tags] [.integer category, .integer tagId] fun c =>
    .ok ((), c.mapTags (·.id = tagId) fun t => { t with category := category, updatedAt := stamp })

/-- The names of the tags of a post, sorted. -/
def tagNamesForPost (postId : Int) : Work (List String) :=
  read [.taggings, .tags] [.integer postId] fun c =>
    ((c.tagsOf postId).map (·.name)).mergeSort (· ≤ ·)

/-- Counts the posts of some tags anew. That a database bounds the number of parameters, one for each tag
here, is left out. -/
def refreshPostCounts (tagIds : List Int) : Work Unit := do
  if !tagIds.isEmpty then
    let stamp := (← get).stamp
    write [.tags, .taggings] [] fun c => .ok ((), c.recount tagIds stamp)

/-- Counts the posts of all tags anew and returns how many counts were wrong. -/
def regeneratePostCounts : Work Int :=
  write [.tags, .taggings] [] fun c =>
    .ok (((c.tags.countP c.isMiscounted : Nat) : Int), c.recountAll)

/-- Changes the post count of a tag by a number. -/
def shiftPostCount (tagId amount : Int) : Work Unit :=
  write [.tags] [] fun c =>
    .ok ((), c.mapTags (·.id = tagId) fun t => { t with postCount := t.postCount + amount })

/-! ## Posts -/

/-- Stamps some posts as changed. -/
def touchPosts (postIds : List Int) : Work Unit := do
  let stamp := (← get).stamp
  write [.posts] (postIds.map .integer) fun c => .ok ((), c.touch postIds stamp)

/-- Puts a tag on a post and says whether it was new there. -/
def addTagging (postId tagId : Int) : Work Bool :=
  writeReferring .taggings [.integer postId, .integer tagId] (Contents.addTagging ⟨postId, tagId⟩)

/-- Takes a tag off a post and says whether it was there. -/
def removeTagging (postId tagId : Int) : Work Bool :=
  writeReferring .taggings [.integer postId, .integer tagId] fun c =>
    .ok (c.removeTagging ⟨postId, tagId⟩)

/-- Puts tags on a post one after the other and counts those that were new. -/
def addEach (postId : Int) : List String → Work Nat
  | [] => return 0
  | name :: rest => do
    let tag ← findOrCreateTag name none
    let added ← addTagging postId tag.id
    if added then shiftPostCount tag.id 1
    let more ← addEach postId rest
    return if added then more + 1 else more

/-- Takes tags off a post one after the other and counts those that were there. -/
def removeEach (postId : Int) : List String → Work Nat
  | [] => return 0
  | name :: rest => do
    match ← getTag (TagName.normalize name) with
    | none => removeEach postId rest
    | some tag =>
      let removed ← removeTagging postId tag.id
      if removed then shiftPostCount tag.id (-1)
      let more ← removeEach postId rest
      return if removed then more + 1 else more

/-- Stamps a post if something was changed on it. -/
def touchIfChanged (postId : Int) (changes : Nat) : Work Nat := do
  if changes > 0 then touchPosts [postId]
  return changes

/-- Puts tags on a post and returns how many were new. -/
def addPostTags (postId : Int) (names : List String) : Work Nat := do
  touchIfChanged postId (← addEach postId names)

/-- Takes tags off a post and returns how many were there. -/
def removePostTags (postId : Int) (names : List String) : Work Nat := do
  touchIfChanged postId (← removeEach postId names)

/-- Makes a post with tags and returns its id. -/
def createPost (draft : PostDraft) (names : List String) : Work Int :=
  atomic do
    let stamp := (← get).stamp
    let id ← writeReferring .posts draft.bound (Contents.addPost draft stamp)
    let _ ← addPostTags id names
    return id

/-- The ids of the posts that carry the tag with a name. -/
def postIdsWithTag (name : String) : Work (List Int) :=
  read [.taggings, .tags] [] fun c =>
    match c.findTag? name with
    | some tag => c.postIdsWith tag.id
    | none => []

/-- Puts a tag on all posts that carry another one. -/
def copyTaggings (source target : Int) : Work Unit :=
  writeReferring .taggings [.integer target, .integer source] fun c =>
    (c.copyTaggings source target).map ((), ·)

/-- Takes a tag off all posts. -/
def removeTaggingsOf (tagId : Int) : Work Unit :=
  writeReferring .taggings [.integer tagId] fun c =>
    .ok ((), { c with taggings := c.taggings.filter (·.tagId ≠ tagId) })

/-- Replaces one tag by another on all posts and returns how many carried it. -/
def replaceTagOnPosts (oldName newName : String) : Work Int := do
  match ← getTag oldName with
  | none => return 0
  | some old =>
    let new ← findOrCreateTag newName none
    let postIds ← postIdsWithTag old.name
    if postIds.isEmpty then return 0
    atomic do
      copyTaggings old.id new.id
      removeTaggingsOf old.id
      refreshPostCounts [old.id, new.id]
      touchPosts postIds
    return postIds.length

/-- Puts tags on all posts that carry a given one, and returns the ids of these tags. -/
def copyToEach (source : Int) : List String → Work (List Int)
  | [] => return []
  | name :: rest => do
    let tag ← findOrCreateTag name none
    copyTaggings source tag.id
    let more ← copyToEach source rest
    return tag.id :: more

/-- Puts tags on all posts that carry a given one and returns how many posts these are. -/
def addTagsToPostsWith (antecedent : String) (names : List String) : Work Int := do
  match ← getTag antecedent with
  | none => return 0
  | some tag =>
    let postIds ← postIdsWithTag tag.name
    if postIds.isEmpty then return 0
    atomic do
      refreshPostCounts (← copyToEach tag.id names)
      touchPosts postIds
    return postIds.length

end Store

end Imageboard
