import Imageboard.Category
import Imageboard.Query.Plan
import Imageboard.Query.Quantity
import Imageboard.Viewer

/-!
# Metatags

Each metatag reads its value into a predicate, and some set the order or the limit as well. The
metatags are fixed but for those that count the tags of a category; of two with one name the later
one counts, so that a category may take over the name of another metatag.
-/

namespace Imageboard.Query

open Text

/-- The kinds of quantity that ranges are read as. -/
inductive QuantityKind where
  | integer
  | mpixels
  | ratio
  | filesize
  | date
  deriving DecidableEq, Repr

/-- Reads a range of a kind of quantity. -/
def QuantityKind.readRange : QuantityKind → String → Except Failure Range
  | .integer => Query.readRange readIntegerValue "integer"
  | .mpixels => readMpixelsRange
  | .ratio => Query.readRange readRatio "ratio"
  | .filesize => readFilesizeRange
  | .date => Query.readRange readDate "date"

/-- How a metatag reads its value. -/
inductive Handler where
  /-- A range of a column. -/
  | quantity (column : Column) (kind : QuantityKind) (category : Option Int)
  /-- A range of elapsed time since the post was made. -/
  | age
  /-- A list of texts, of which only the first character may count. -/
  | texts (column : Column) (initialOnly : Bool)
  | source
  | status
  | locked
  | parent
  | child
  /-- A user; the words `any` and `none` may be special. -/
  | user (relation : Relation) (anyOrNone : Bool)
  | ordfav
  | pool
  | ordpool
  /-- A user whose votes the viewer may see. -/
  | vote (relation : Relation)
  | limit
  deriving DecidableEq, Repr

/-- What a metatag contributes to a plan. -/
structure Effect where
  predicate : Option Predicate
  order : Option Order
  limit : Option Int
  deriving DecidableEq, Repr

namespace Effect

/-- A predicate alone. -/
def select (p : Predicate) : Effect := ⟨some p, none, none⟩

/-- A predicate and an order. -/
def selectAndOrder (p : Predicate) (o : Order) : Effect := ⟨some p, some o, none⟩

end Effect

/-- The time stamp of the moment some seconds before another. -/
def agoStamp (now : Moment) : Value → Except Failure Value
  | .integer seconds =>
    match (now.earlier? seconds).bind (·.stamp?) with
    | some s => .ok (.text s)
    | none => .error .overflow
  | _ => .error .wrongType

/-- The range of creation times for a range of ages; comparisons turn around. -/
def ageToCreation (now : Moment) (value : String) : Range → Except Failure Range
  | .lt v => (agoStamp now v).map .gt
  | .lte v => (agoStamp now v).map .gte
  | .gt v => (agoStamp now v).map .lt
  | .gte v => (agoStamp now v).map .lte
  | .eq v => (agoStamp now v).map .gte
  | .between lower upper =>
    match agoStamp now upper with
    | .error e => .error e
    | .ok upper => (agoStamp now lower).map (.between upper)
  | .among _ => .error (.malformedRange value "duration")

/-- The text of a list item, or its first character, in lower case. -/
def itemText (initialOnly : Bool) (item : List Char) : String :=
  String.ofList (lower (if initialOnly then item.take 1 else item))

/-- The predicate of each status; two statuses select every post. -/
def statusPredicate? : String → Option (Option Predicate)
  | "pending" => some (some (.flags [.pending] true .all))
  | "flagged" => some (some (.flags [.flagged] true .all))
  | "deleted" => some (some (.flags [.deleted] true .all))
  | "banned" => some (some (.flags [.banned] true .all))
  | "modqueue" => some (some (.flags [.pending, .flagged] true .any))
  | "active" => some (some (.flags [.pending, .flagged, .deleted, .banned] false .all))
  | "any" | "all" => some none
  | _ => none

/-- The statuses that bring deleted posts back. -/
def showsDeleted (status : String) : Bool :=
  status ∈ ["deleted", "any", "all"]

/-- The flag of each lock. -/
def lockFlag? : String → Option Flag
  | "rating" => some .ratingLocked
  | "note" => some .noteLocked
  | "status" => some .statusLocked
  | _ => none

/-- Whether a word stands for any or for none. -/
def isAnyOrNone (word : String) : Bool :=
  word = "any" || word = "none"

/-- The user that a value names; `self` is the viewer. -/
def userNamed? (viewer : Viewer) (value : String) : Option String :=
  if lowerString value = "self" then viewer.userName else some value

/-- A source pattern: lower case, any ending. -/
def sourcePattern (value : String) : String :=
  String.ofList
    (((lower value.toList).reverse.dropWhile (· = '*')).reverse ++ ['*'])

/-- What a metatag contributes for a value, a viewer and the moment that ages count from. -/
def Handler.apply (viewer : Viewer) (now : Moment) (value : String) :
    Handler → Except Failure Effect
  | .quantity column kind category =>
    (kind.readRange value).map fun r => .select (.range column r category)
  | .age =>
    match readRange readDuration "duration" value with
    | .error e => .error e
    | .ok r => (ageToCreation now value r).map fun r => .select (.range .createdAt r none)
  | .texts column initialOnly =>
    match (commaItems value.toList).map (itemText initialOnly) with
    | [] => .error (.malformedRange value column.name)
    | [item] => .ok (.select (.range column (.eq (.text item)) none))
    | items => .ok (.select (.range column (.among (items.map .text)) none))
  | .source =>
    if lowerString value = "none" then .ok (.select (.range .source (.eq (.text "")) none))
    else .ok (.select (.pattern .source (sourcePattern value)))
  | .status =>
    let key := lowerString value
    match statusPredicate? key with
    | some p => .ok ⟨p, none, none⟩
    | none => .ok (.select (.never ("unknown status " ++ key)))
  | .locked =>
    let key := lowerString value
    match lockFlag? key with
    | some flag => .ok (.select (.flags [flag] true .all))
    | none => .ok (.select (.never ("unknown lock " ++ key)))
  | .parent =>
    let key := lowerString value
    if isAnyOrNone key then .ok (.select (.relation .parent (.text key)))
    else match readInteger? key with
      | some n => .ok (.select (.relation .parent (.integer n)))
      | none => .error (.malformedRange value "parent")
  | .child =>
    let key := lowerString value
    if isAnyOrNone key then .ok (.select (.relation .child (.text key)))
    else .error (.malformedRange value "child")
  | .user relation anyOrNone =>
    let key := lowerString value
    if anyOrNone && isAnyOrNone key then .ok (.select (.relation relation (.text key)))
    else match userNamed? viewer value with
      | some name => .ok (.select (.relation relation (.text name)))
      | none => .ok (.select (.never (relation.name ++ ":self without user")))
  | .ordfav =>
    match userNamed? viewer value with
    | some name =>
      .ok (.selectAndOrder (.relation .fav (.text name)) ⟨.ordfav, .desc, [.text name]⟩)
    | none => .ok (.select (.never "ordfav:self without user"))
  | .pool =>
    let key := lowerString value
    if key = "series" ∨ key = "collection" then
      .ok (.select (.relation .poolCategory (.text key)))
    else if isAnyOrNone key then .ok (.select (.relation .pool (.text key)))
    else .ok (.select (.relation .pool (.text (TagName.normalize value))))
  | .ordpool =>
    let name := TagName.normalize value
    .ok (.selectAndOrder (.relation .pool (.text name)) ⟨.ordpool, .asc, [.text name]⟩)
  | .vote relation =>
    match userNamed? viewer value with
    | some name =>
      if viewer.isModerator || viewer.isSelf name then
        .ok (.select (.relation relation (.text name)))
      else .ok (.select (.never (relation.name ++ " votes are private")))
    | none => .ok (.select (.never (relation.name ++ " votes are private")))
  | .limit =>
    match readInteger? value with
    | some n => if n < 0 then .error (.malformedRange value "limit") else .ok ⟨none, none, some n⟩
    | none => .error (.malformedRange value "limit")

/-- The metatags with their names, in order. -/
abbrev Registry := List (String × Handler)

namespace Registry

/-- The metatags that do not depend on the categories. -/
def fixed : Registry :=
  [("id", .quantity .id .integer none),
   ("score", .quantity .score .integer none),
   ("favcount", .quantity .favCount .integer none),
   ("width", .quantity .imageWidth .integer none),
   ("height", .quantity .imageHeight .integer none),
   ("mpixels", .quantity .mpixels .mpixels none),
   ("ratio", .quantity .ratio .ratio none),
   ("filesize", .quantity .fileSize .filesize none),
   ("tagcount", .quantity .tagCount .integer none),
   ("date", .quantity .createdDate .date none),
   ("age", .age),
   ("md5", .texts .md5 false),
   ("filetype", .texts .fileExt false),
   ("rating", .texts .rating true),
   ("source", .source),
   ("status", .status),
   ("locked", .locked),
   ("parent", .parent),
   ("child", .child),
   ("user", .user .uploader true),
   ("approver", .user .approver true),
   ("fav", .user .fav false),
   ("ordfav", .ordfav),
   ("pool", .pool),
   ("ordpool", .ordpool),
   ("upvote", .vote .upvote),
   ("downvote", .vote .downvote),
   ("limit", .limit)]

/-- All metatags of a board. -/
def ofCategories (cs : Categories) : Registry :=
  fixed ++ cs.toList.map fun c =>
    (c.countMetatag, .quantity .categoryTagCount .integer (some c.code))

/-- The names of the metatags. -/
def names (r : Registry) : List String :=
  distinct (r.map (·.1))

/-- How the metatag with a name in lower case reads its value. -/
def find? (r : Registry) (name : String) : Option Handler :=
  (r.reverse.find? (·.1 = name)).map (·.2)

/-- What the metatag with a name, in any letter case, contributes. -/
def evaluate (r : Registry) (viewer : Viewer) (now : Moment) (name value : String) :
    Except Failure Effect :=
  match r.find? (lowerString name) with
  | some handler => handler.apply viewer now value
  | none => .error (.unknownMetatag name)

end Registry

end Imageboard.Query
