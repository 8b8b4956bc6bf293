import Imageboard.Json.Printer
import Imageboard.Json.Reader
import Imageboard.Store.Contents

/-!
# Stores as text

The contents of a store written as text, table by table and row by row, behind a mark that tells the
text from any other. An empty text is a store without tables.
-/

namespace Imageboard

/-! ## Rows -/

/-- The integer or nothing in a cell. -/
def Value.optionalInteger? : Value → Option (Option Int)
  | .null => some none
  | .integer n => some (some n)
  | _ => none

/-- The text or nothing in a cell. -/
def Value.optionalText? : Value → Option (Option String)
  | .null => some none
  | .text s => some (some s)
  | _ => none

/-- The user in a row. -/
def User.ofCells? : List Value → Option User
  | [.integer id, .text name, created] => some ⟨id, name, created⟩
  | _ => none

/-- The category in a row. -/
def CategoryRow.ofCells? : List Value → Option CategoryRow
  | [.integer code, .text name, .text short] => some ⟨code, name, short⟩
  | _ => none

/-- The tag in a row. -/
def Tag.ofCells? : List Value → Option Tag
  | [.integer id, .text name, .integer category, .integer count, created, updated] =>
    some ⟨id, name, category, count, created, updated⟩
  | _ => none

/-- The post in a row. -/
def Post.ofCells? : List Value → Option Post
  | [.integer id, md5, .text rating, .text source, .text ext, .integer size, .integer width,
      .integer height, .integer score, .integer favs, parent, uploader, approver,
      .integer pending, .integer flagged, .integer deleted, .integer banned,
      .integer ratingLocked, .integer noteLocked, .integer statusLocked, created, updated] => do
    let md5 ← md5.optionalText?
    let parent ← parent.optionalInteger?
    let uploader ← uploader.optionalInteger?
    let approver ← approver.optionalInteger?
    return ⟨id, md5, rating, source, ext, size, width, height, score, favs, parent, uploader,
      approver, pending, flagged, deleted, banned, ratingLocked, noteLocked, statusLocked, created,
      updated⟩
  | _ => none

/-- The tagging in a row. -/
def Tagging.ofCells? : List Value → Option Tagging
  | [.integer postId, .integer tagId] => some ⟨postId, tagId⟩
  | _ => none

/-- The relationship in a row. -/
def Relationship.ofCells? : List Value → Option Relationship
  | [.integer id, .text antecedent, .text consequent, .text status, topic, creator, approver,
      created, updated] => do
    let status ← Status.named? status
    let topic ← topic.optionalInteger?
    let creator ← creator.optionalInteger?
    let approver ← approver.optionalInteger?
    return ⟨id, antecedent, consequent, status, topic, creator, approver, created, updated⟩
  | _ => none

/-- The wiki page in a row. -/
def WikiPage.ofCells? : List Value → Option WikiPage
  | [.integer id, .text title, .text body, .integer deleted, updated] =>
    some ⟨id, title, body, deleted, updated⟩
  | _ => none

/-- The artist in a row. -/
def Artist.ofCells? : List Value → Option Artist
  | [.integer id, .text name, .integer active, updated] => some ⟨id, name, active, updated⟩
  | _ => none

/-- The pool in a row. -/
def Pool.ofCells? : List Value → Option Pool
  | [.integer id, .text name, .text category, .integer deleted] =>
    some ⟨id, name, category, deleted⟩
  | _ => none

/-- The place in a pool in a row. -/
def PoolPost.ofCells? : List Value → Option PoolPost
  | [.integer poolId, .integer postId, .integer position] => some ⟨poolId, postId, position⟩
  | _ => none

/-- The favourite in a row. -/
def Favorite.ofCells? : List Value → Option Favorite
  | [.integer id, .integer userId, .integer postId, created] => some ⟨id, userId, postId, created⟩
  | _ => none

/-- The vote in a row. -/
def Vote.ofCells? : List Value → Option Vote
  | [.integer postId, .integer userId, .integer score, created] =>
    some ⟨postId, userId, score, created⟩
  | _ => none

/-- The remembered count in a row. -/
def CachedCount.ofCells? : List Value → Option CachedCount
  | [.text key, .integer count, .real expires] => some ⟨key, count, expires⟩
  | _ => none

/-! ## Tables -/

/-- A cell as structured data. -/
def Value.toJson : Value → Json
  | .null => .null
  | .integer n => .integer n
  | .real x => .real x
  | .text s => .text s

/-- The cell in structured data. -/
def Value.ofJson? : Json → Option Value
  | .null => some .null
  | .integer n => some (.integer n)
  | .real x => some (.real x)
  | .text s => some (.text s)
  | _ => none

namespace Contents

/-- What a text that holds a store begins with. -/
def archiveMark : String := "imageboard 1\n"

/-- The tables that exist, as structured data. -/
def toJson (c : Contents) : Json :=
  .object ((Table.all.filter c.has).map fun t =>
    (t.name, .list ((c.rows t).map fun row => .list (row.map Value.toJson))))

/-- The contents as text. -/
def archive (c : Contents) : String :=
  archiveMark ++ c.toJson.render Json.Layout.compact ++ "\n"

/-- The records of a table in structured data; a table that is not there has none. -/
def recordsOf? {α : Type} (ofCells? : List Value → Option α) (t : Table) (j : Json) :
    Option (List α) :=
  match j.get? t.name with
  | none => some []
  | some (.list rows) => rows.mapM fun
    | .list cells => (cells.mapM Value.ofJson?).bind ofCells?
    | _ => none
  | some _ => none

/-- The contents in structured data. -/
def ofJson? (j : Json) : Option Contents := do
  let users ← recordsOf? User.ofCells? .users j
  let categories ← recordsOf? CategoryRow.ofCells? .categories j
  let tags ← recordsOf? Tag.ofCells? .tags j
  let posts ← recordsOf? Post.ofCells? .posts j
  let taggings ← recordsOf? Tagging.ofCells? .taggings j
  let aliases ← recordsOf? Relationship.ofCells? .aliases j
  let implications ← recordsOf? Relationship.ofCells? .implications j
  let wikiPages ← recordsOf? WikiPage.ofCells? .wikiPages j
  let artists ← recordsOf? Artist.ofCells? .artists j
  let pools ← recordsOf? Pool.ofCells? .pools j
  let poolPosts ← recordsOf? PoolPost.ofCells? .poolPosts j
  let favorites ← recordsOf? Favorite.ofCells? .favorites j
  let votes ← recordsOf? Vote.ofCells? .votes j
  let cachedCounts ← recordsOf? CachedCount.ofCells? .countCache j
  return ⟨users, categories, tags, posts, taggings, aliases, implications, wikiPages, artists,
    pools, poolPosts, favorites, votes, cachedCounts,
    Table.all.filter fun t => (j.get? t.name).isNone⟩

/-- The contents in a text. -/
def ofArchive? (text : String) : Option Contents :=
  if text.isEmpty then some blank
  else if text.startsWith archiveMark then
    match Json.read (text.drop archiveMark.length).toString with
    | .ok j => ofJson? j
    | .error _ => none
  else none

end Contents

end Imageboard
