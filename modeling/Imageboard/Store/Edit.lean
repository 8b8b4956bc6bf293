import Imageboard.Store.Tagging

/-!
# Editing single fields

Any field of a record that is found by its primary key can be overwritten. The rules of the table
are checked, but nothing else is kept up: no count, no time stamp, no alias generation.
-/

namespace Imageboard

namespace Edit

/-- The integer that a column of integers makes of a value, if it makes one. -/
def integer? (v : Value) : Option Int :=
  match v.inTimeColumn with
  | .integer n => some n
  | _ => none

/-- The integer that a value becomes, or else the one that was there. -/
def integer (before : Int) (v : Value) : Int :=
  (integer? v).getD before

/-- The text that a column of texts makes of a value, if it makes one. -/
def text? : Value → Option String
  | .text s => some s
  | .integer n => some (toString n)
  | .real x => some x.text
  | .null => none

/-- The text that a value becomes, or else the one that was there. -/
def text (before : String) (v : Value) : String :=
  (text? v).getD before

/-- Overwrites a field of a user. -/
def user (r : User) (column : String) (v : Value) : User :=
  match column with
  | "user_id" => { r with id := integer r.id v }
  | "name" => { r with name := text r.name v }
  | "created_at" => { r with createdAt := v.inTimeColumn }
  | _ => r

/-- Overwrites a field of a category. -/
def category (r : CategoryRow) (column : String) (v : Value) : CategoryRow :=
  match column with
  | "code" => { r with code := integer r.code v }
  | "name" => { r with name := text r.name v }
  | "short_name" => { r with shortName := text r.shortName v }
  | _ => r

/-- Overwrites a field of a tag. -/
def tag (r : Tag) (column : String) (v : Value) : Tag :=
  match column with
  | "tag_id" => { r with id := integer r.id v }
  | "name" => { r with name := text r.name v }
  | "category" => { r with category := integer r.category v }
  | "post_count" => { r with postCount := integer r.postCount v }
  | "created_at" => { r with createdAt := v.inTimeColumn }
  | "updated_at" => { r with updatedAt := v.inTimeColumn }
  | _ => r

/-- Overwrites a field of a post. -/
def post (r : Post) (column : String) (v : Value) : Post :=
  match column with
  | "post_id" => { r with id := integer r.id v }
  | "md5" => { r with md5 := text? v }
  | "rating" => { r with rating := text r.rating v }
  | "source" => { r with source := text r.source v }
  | "file_ext" => { r with fileExt := text r.fileExt v }
  | "file_size" => { r with fileSize := integer r.fileSize v }
  | "image_width" => { r with imageWidth := integer r.imageWidth v }
  | "image_height" => { r with imageHeight := integer r.imageHeight v }
  | "score" => { r with score := integer r.score v }
  | "fav_count" => { r with favCount := integer r.favCount v }
  | "parent_id" => { r with parentId := integer? v }
  | "uploader_id" => { r with uploaderId := integer? v }
  | "approver_id" => { r with approverId := integer? v }
  | "is_pending" => { r with isPending := integer r.isPending v }
  | "is_flagged" => { r with isFlagged := integer r.isFlagged v }
  | "is_deleted" => { r with isDeleted := integer r.isDeleted v }
  | "is_banned" => { r with isBanned := integer r.isBanned v }
  | "is_rating_locked" => { r with isRatingLocked := integer r.isRatingLocked v }
  | "is_note_locked" => { r with isNoteLocked := integer r.isNoteLocked v }
  | "is_status_locked" => { r with isStatusLocked := integer r.isStatusLocked v }
  | "created_at" => { r with createdAt := v.inTimeColumn }
  | "updated_at" => { r with updatedAt := v.inTimeColumn }
  | _ => r

/-- Overwrites a field of a post that is to be made. -/
def draft (d : PostDraft) (column : String) (v : Value) : PostDraft :=
  match column with
  | "post_id" => { d with id := integer? v }
  | "md5" => { d with md5 := text? v }
  | "rating" => { d with rating := text d.rating v }
  | "source" => { d with source := text d.source v }
  | "file_ext" => { d with fileExt := text d.fileExt v }
  | "file_size" => { d with fileSize := integer d.fileSize v }
  | "image_width" => { d with imageWidth := integer d.imageWidth v }
  | "image_height" => { d with imageHeight := integer d.imageHeight v }
  | "score" => { d with score := integer d.score v }
  | "fav_count" => { d with favCount := integer d.favCount v }
  | "parent_id" => { d with parentId := integer? v }
  | "uploader_id" => { d with uploaderId := integer? v }
  | "approver_id" => { d with approverId := integer? v }
  | "is_pending" => { d with isPending := integer d.isPending v }
  | "is_flagged" => { d with isFlagged := integer d.isFlagged v }
  | "is_deleted" => { d with isDeleted := integer d.isDeleted v }
  | "is_banned" => { d with isBanned := integer d.isBanned v }
  | "is_rating_locked" => { d with isRatingLocked := integer d.isRatingLocked v }
  | "is_note_locked" => { d with isNoteLocked := integer d.isNoteLocked v }
  | "is_status_locked" => { d with isStatusLocked := integer d.isStatusLocked v }
  | "created_at" => { d with createdAt := some v }
  | "updated_at" => { d with updatedAt := some v }
  | _ => d

/-- Overwrites a field of a relationship. -/
def relationship (r : Relationship) (column : String) (v : Value) : Relationship :=
  match column with
  | "antecedent_name" => { r with antecedent := text r.antecedent v }
  | "consequent_name" => { r with consequent := text r.consequent v }
  | "status" => { r with status := ((text? v).bind Status.named?).getD r.status }
  | "forum_topic_id" => { r with forumTopicId := integer? v }
  | "creator_id" => { r with creatorId := integer? v }
  | "approver_id" => { r with approverId := integer? v }
  | "created_at" => { r with createdAt := v.inTimeColumn }
  | "updated_at" => { r with updatedAt := v.inTimeColumn }
  | _ => { r with id := integer r.id v }

/-- Overwrites a field of a wiki page. -/
def wikiPage (r : WikiPage) (column : String) (v : Value) : WikiPage :=
  match column with
  | "wiki_page_id" => { r with id := integer r.id v }
  | "title" => { r with title := text r.title v }
  | "body" => { r with body := text r.body v }
  | "is_deleted" => { r with isDeleted := integer r.isDeleted v }
  | "updated_at" => { r with updatedAt := v.inTimeColumn }
  | _ => r

/-- Overwrites a field of an artist. -/
def artist (r : Artist) (column : String) (v : Value) : Artist :=
  match column with
  | "artist_id" => { r with id := integer r.id v }
  | "name" => { r with name := text r.name v }
  | "is_active" => { r with isActive := integer r.isActive v }
  | "updated_at" => { r with updatedAt := v.inTimeColumn }
  | _ => r

/-- Overwrites a field of a pool. -/
def pool (r : Pool) (column : String) (v : Value) : Pool :=
  match column with
  | "pool_id" => { r with id := integer r.id v }
  | "name" => { r with name := text r.name v }
  | "category" => { r with category := text r.category v }
  | "is_deleted" => { r with isDeleted := integer r.isDeleted v }
  | _ => r

/-- Overwrites a field of a favourite. -/
def favorite (r : Favorite) (column : String) (v : Value) : Favorite :=
  match column with
  | "favorite_id" => { r with id := integer r.id v }
  | "user_id" => { r with userId := integer r.userId v }
  | "post_id" => { r with postId := integer r.postId v }
  | "created_at" => { r with createdAt := v.inTimeColumn }
  | _ => r

/-- Overwrites a field of a remembered count. -/
def cachedCount (r : CachedCount) (column : String) (v : Value) : CachedCount :=
  match column with
  | "cache_key" => { r with key := text r.key v }
  | "count" => { r with count := integer r.count v }
  | "expires_at" =>
    match v with
    | .real x => { r with expiresAt := x }
    | .integer n => { r with expiresAt := Binary64.ofInt n }
    | _ => r
  | _ => r

/-- Changes the first record that satisfies a condition, and says whether there is one; the changed
record is checked against the others. -/
def first {α : Type} (p : α → Bool) (f : α → α) (check : List α → α → Except StoreFault Unit) :
    List α → List α → Except StoreFault (Bool × List α)
  | done, [] => .ok (false, done)
  | done, r :: rest =>
    if p r then (check (done ++ rest) (f r)).map fun _ => (true, done ++ f r :: rest)
    else first p f check (done ++ [r]) rest

/-- Refuses a record that another one agrees with in a key. -/
def distinctIn {α β : Type} [DecidableEq β] (columns : String) (key : α → β) (others : List α)
    (r : α) : Except StoreFault Unit :=
  if others.any fun q => key q = key r then .error (.unique columns) else .ok ()

/-- The rules on posts. -/
def checkPost (others : List Post) (r : Post) : Except StoreFault Unit :=
  if !Contents.ratings.contains r.rating then .error (.check "ck_rating")
  else distinctIn "POSTS.post_id" (·.id) others r

/-- The rules on pools. -/
def checkPool (others : List Pool) (r : Pool) : Except StoreFault Unit :=
  if !Contents.poolCategories.contains r.category then .error (.check "ck_pool_category")
  else do
    distinctIn "POOLS.pool_id" (·.id) others r
    distinctIn "POOLS.name" (fun q => Text.foldAscii q.name) others r

/-- Two rules one after the other. -/
def both {α : Type} (check check' : List α → α → Except StoreFault Unit) (others : List α) (r : α) :
    Except StoreFault Unit :=
  match check others r with
  | .error e => .error e
  | .ok () => check' others r

/-- The rules on relationships; the name of a status that does not exist is refused first. -/
def checkStatus (kind : RelationshipKind) (column : String) (v : Value) (others : List Relationship)
    (r : Relationship) : Except StoreFault Unit :=
  if column = "status" ∧ ((text? v).bind Status.named?).isNone then
    .error (.check (Contents.statusRule kind))
  else Contents.checkRelationship kind others r

/-- Overwrites a field of the record of a table with a primary key, and says whether there is
one. -/
def apply (c : Contents) (t : Table) (key : Value) (column : String) (v : Value) :
    Except StoreFault (Bool × Contents) :=
  match t with
  | .users =>
    (first (fun r => .integer r.id = key) (user · column v)
      (both (distinctIn "USERS.user_id" (·.id))
        (distinctIn "USERS.name" fun q => Text.foldAscii q.name)) [] c.users).map
      fun (found, rows) => (found, { c with users := rows })
  | .categories =>
    (first (fun r => .integer r.code = key) (category · column v)
      (both (distinctIn "TAG_CATEGORIES.code" (·.code))
        (distinctIn "TAG_CATEGORIES.name" (·.name))) [] c.categories).map
      fun (found, rows) => (found, { c with categories := rows })
  | .tags =>
    (first (fun r => .integer r.id = key) (tag · column v)
      (both (distinctIn "TAGS.tag_id" (·.id)) (distinctIn "TAGS.name" (·.name))) [] c.tags).map
      fun (found, rows) => (found, { c with tags := rows })
  | .posts =>
    (first (fun r => .integer r.id = key) (post · column v) checkPost [] c.posts).map
      fun (found, rows) => (found, { c with posts := rows })
  | .aliases =>
    (first (fun r => .integer r.id = key) (relationship · column v)
      (checkStatus .alias column v) [] c.aliases).map
      fun (found, rows) => (found, { c with aliases := rows })
  | .implications =>
    (first (fun r => .integer r.id = key) (relationship · column v)
      (checkStatus .implication column v) [] c.implications).map
      fun (found, rows) => (found, { c with implications := rows })
  | .wikiPages =>
    (first (fun r => .integer r.id = key) (wikiPage · column v)
      (both (distinctIn "WIKI_PAGES.wiki_page_id" (·.id))
        (distinctIn "WIKI_PAGES.title" (·.title))) [] c.wikiPages).map
      fun (found, rows) => (found, { c with wikiPages := rows })
  | .artists =>
    (first (fun r => .integer r.id = key) (artist · column v)
      (both (distinctIn "ARTISTS.artist_id" (·.id))
        (distinctIn "ARTISTS.name" (·.name))) [] c.artists).map
      fun (found, rows) => (found, { c with artists := rows })
  | .pools =>
    (first (fun r => .integer r.id = key) (pool · column v) checkPool [] c.pools).map
      fun (found, rows) => (found, { c with pools := rows })
  | .favorites =>
    (first (fun r => .integer r.id = key) (favorite · column v)
      (both (distinctIn "FAVORITES.favorite_id" (·.id))
        (distinctIn "FAVORITES.user_id, FAVORITES.post_id" fun q => (q.userId, q.postId)))
      [] c.favorites).map
      fun (found, rows) => (found, { c with favorites := rows })
  | .countCache =>
    (first (fun r => .text r.key = key) (cachedCount · column v)
      (distinctIn "COUNT_CACHE.cache_key" (·.key)) [] c.cachedCounts).map
      fun (found, rows) => (found, { c with cachedCounts := rows })
  | .taggings | .poolPosts | .votes => .ok (false, c)

end Edit

namespace Store

/-- Overwrites a field of the record of a table with a primary key, and returns how many records
were changed. -/
def setField (t : Table) (key : Value) (column : String) (v : Value) : Work Int :=
  Work.write [t] [key, v] fun c =>
    match Edit.apply c t key column v with
    | .error e => .error e
    | .ok (found, after) =>
      (Contents.requireReferences (after.refers || !c.refers) after).map
        (if found then 1 else 0, ·)

end Store

end Imageboard
