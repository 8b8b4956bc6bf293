/-!
# Tables

The names of the tables that a store keeps its records in, with the columns of each in order, and
which table each foreign key of a table points to.
-/

namespace Imageboard

/-- A table of the store. -/
inductive Table where
  | users
  | categories
  | tags
  | posts
  | taggings
  | aliases
  | implications
  | wikiPages
  | artists
  | pools
  | poolPosts
  | favorites
  | votes
  | countCache
  deriving DecidableEq, Repr

namespace Table

/-- The tables in the order in which they are made. -/
def all : List Table :=
  [users, categories, tags, posts, taggings, aliases, implications, wikiPages, artists, pools,
    poolPosts, favorites, votes, countCache]

/-- The name of a table in statements. -/
def name : Table → String
  | users => "USERS"
  | categories => "TAG_CATEGORIES"
  | tags => "TAGS"
  | posts => "POSTS"
  | taggings => "POST_TAGS"
  | aliases => "TAG_ALIASES"
  | implications => "TAG_IMPLICATIONS"
  | wikiPages => "WIKI_PAGES"
  | artists => "ARTISTS"
  | pools => "POOLS"
  | poolPosts => "POOL_POSTS"
  | favorites => "FAVORITES"
  | votes => "POST_VOTES"
  | countCache => "COUNT_CACHE"

/-- The table with a name. -/
def named? (name : String) : Option Table :=
  all.find? (·.name = name)

/-- The columns of a table in order. -/
def columns : Table → List String
  | users => ["user_id", "name", "created_at"]
  | categories => ["code", "name", "short_name"]
  | tags => ["tag_id", "name", "category", "post_count", "created_at", "updated_at"]
  | posts =>
    ["post_id", "md5", "rating", "source", "file_ext", "file_size", "image_width", "image_height",
      "score", "fav_count", "parent_id", "uploader_id", "approver_id", "is_pending", "is_flagged",
      "is_deleted", "is_banned", "is_rating_locked", "is_note_locked", "is_status_locked",
      "created_at", "updated_at"]
  | taggings => ["post_id", "tag_id"]
  | aliases =>
    ["alias_id", "antecedent_name", "consequent_name", "status", "forum_topic_id", "creator_id",
      "approver_id", "created_at", "updated_at"]
  | implications =>
    ["implication_id", "antecedent_name", "consequent_name", "status", "forum_topic_id",
      "creator_id", "approver_id", "created_at", "updated_at"]
  | wikiPages => ["wiki_page_id", "title", "body", "is_deleted", "updated_at"]
  | artists => ["artist_id", "name", "is_active", "updated_at"]
  | pools => ["pool_id", "name", "category", "is_deleted"]
  | poolPosts => ["pool_id", "post_id", "position"]
  | favorites => ["favorite_id", "user_id", "post_id", "created_at"]
  | votes => ["post_id", "user_id", "score", "created_at"]
  | countCache => ["cache_key", "count", "expires_at"]

/-- The tables that the foreign keys of a table point to, the last key first. -/
def parents : Table → List Table
  | posts => [users, users, posts]
  | taggings => [tags, posts]
  | poolPosts => [posts, pools]
  | favorites => [posts, users]
  | votes => [users, posts]
  | _ => []

end Table

end Imageboard
