import Imageboard.Query.Plan
import Imageboard.Text.Pattern

/-!
# Statements

A plan is written as an SQL statement. The text is put together from fixed pieces chosen by the form
of the plan; names, patterns and compared values are passed as parameters and never become text, so
there are as many parameters as question marks.

This is one of two readings of a plan. What it selects is the other: `Search.Condition` and
`Search.Selection` follow the same cases and give each its meaning in a store. No theorem connects the
two, because the text is data here and the language that it is written in has no semantics in this
library; a selection takes over the parameters of a statement, and nothing else of it.
-/

namespace Imageboard.Query

/-- A piece of a statement with its parameters in order. -/
structure Fragment where
  text : String
  params : List Value
  deriving DecidableEq, Repr

namespace Fragment

/-- A piece without parameters. -/
def plain (text : String) : Fragment := ⟨text, []⟩

/-- What is true of every row. -/
def always : Fragment := plain "1 = 1"

/-- What is true of no row. -/
def never : Fragment := plain "0 = 1"

/-- The negation. -/
def negate (f : Fragment) : Fragment :=
  ⟨"NOT (" ++ f.text ++ ")", f.params⟩

/-- Joins pieces by a word; a single one stands alone. -/
def combine (word : String) (neutral : Fragment) : List Fragment → Fragment
  | [] => neutral
  | [f] => f
  | fs =>
    ⟨(" " ++ word ++ " ").intercalate (fs.map fun f => "(" ++ f.text ++ ")"),
      fs.flatMap (·.params)⟩

/-- All of some pieces. -/
def all (fs : List Fragment) : Fragment :=
  combine "AND" always fs

/-- One of some pieces. -/
def any (fs : List Fragment) : Fragment :=
  combine "OR" never fs

end Fragment

/-- The width times the height in millions. -/
def mpixelsExpression : String := "(p.image_width * p.image_height / 1000000.0)"

/-- The width by the height, to two places. -/
def ratioExpression : String :=
  "ROUND(CAST(p.image_width AS REAL) / NULLIF(p.image_height, 0), 2)"

/-- The number of tags. -/
def tagCountExpression : String :=
  "(SELECT COUNT(*) FROM POST_TAGS ptc WHERE ptc.post_id = p.post_id)"

/-- The number of tags of a category. -/
def categoryTagCountExpression : String :=
  "(SELECT COUNT(*) FROM POST_TAGS ptc JOIN TAGS tc ON tc.tag_id = ptc.tag_id " ++
    "WHERE ptc.post_id = p.post_id AND tc.category = ?)"

/-- The expression of a column; the count of tags by category has a parameter and is apart. -/
def Column.expression? : Column → Option String
  | .id => some "p.post_id"
  | .score => some "p.score"
  | .favCount => some "p.fav_count"
  | .imageWidth => some "p.image_width"
  | .imageHeight => some "p.image_height"
  | .fileSize => some "p.file_size"
  | .md5 => some "p.md5"
  | .fileExt => some "p.file_ext"
  | .rating => some "p.rating"
  | .source => some "p.source"
  | .createdAt => some "p.created_at"
  | .createdDate => some "date(p.created_at)"
  | .mpixels => some mpixelsExpression
  | .ratio => some ratioExpression
  | .tagCount => some tagCountExpression
  | .categoryTagCount => none

/-- Question marks for some parameters. -/
def placeholders (n : Nat) : String :=
  ", ".intercalate (List.replicate n "?")

/-- The posts that carry a tag. -/
def TagFilter.fragment (f : TagFilter) : Fragment :=
  let operator := if f.wildcard then "GLOB" else "="
  let name := if f.wildcard then String.ofList (Text.escapeGlob f.name.toList) else f.name
  ⟨"p.post_id IN (SELECT pt.post_id FROM POST_TAGS pt JOIN TAGS t ON t.tag_id = pt.tag_id " ++
    "WHERE t.name " ++ operator ++ " ?)", [.text name]⟩

/-- An expression constrained to a range. -/
def Range.fragment (expression : String) (params : List Value) : Range → Fragment
  | .eq v => ⟨expression ++ " = ?", params ++ [v]⟩
  | .lt v => ⟨expression ++ " < ?", params ++ [v]⟩
  | .lte v => ⟨expression ++ " <= ?", params ++ [v]⟩
  | .gt v => ⟨expression ++ " > ?", params ++ [v]⟩
  | .gte v => ⟨expression ++ " >= ?", params ++ [v]⟩
  | .between lower upper => ⟨expression ++ " BETWEEN ? AND ?", params ++ [lower, upper]⟩
  | .among vs => ⟨expression ++ " IN (" ++ placeholders vs.length ++ ")", params ++ vs⟩

/-- A user by name. -/
def userIdExpression : String := "(SELECT user_id FROM USERS WHERE name = ?)"

/-- A pool that is not deleted and holds the post, with a further condition. -/
def poolExists (extra : String) : String :=
  "EXISTS (SELECT 1 FROM POOL_POSTS pp JOIN POOLS po ON po.pool_id = pp.pool_id " ++
    "WHERE pp.post_id = p.post_id AND po.is_deleted = 0" ++ extra ++ ")"

/-- A user of the post. -/
def userFragment (column : String) (value : Value) : Fragment :=
  if value = .text "any" then .plain (column ++ " IS NOT NULL")
  else if value = .text "none" then .plain (column ++ " IS NULL")
  else ⟨column ++ " = " ++ userIdExpression, [value]⟩

/-- A vote of a user whose score compares with zero as the sign says. -/
def voteFragment (sign : String) (value : Value) : Fragment :=
  ⟨"EXISTS (SELECT 1 FROM POST_VOTES v JOIN USERS u ON u.user_id = v.user_id " ++
    "WHERE v.post_id = p.post_id AND u.name = ? AND v.score " ++ sign ++ " 0)", [value]⟩

/-- A post with children. -/
def childExists : String := "EXISTS (SELECT 1 FROM POSTS c WHERE c.parent_id = p.post_id)"

/-- The statement of a relation. -/
def Relation.fragment (value : Value) : Relation → Fragment
  | .uploader => userFragment "p.uploader_id" value
  | .approver => userFragment "p.approver_id" value
  | .fav =>
    ⟨"EXISTS (SELECT 1 FROM FAVORITES f JOIN USERS u ON u.user_id = f.user_id " ++
      "WHERE f.post_id = p.post_id AND u.name = ?)", [value]⟩
  | .upvote => voteFragment ">" value
  | .downvote => voteFragment "<" value
  | .pool =>
    if value = .text "any" then .plain (poolExists "")
    else if value = .text "none" then .plain ("NOT " ++ poolExists "")
    else
      ⟨poolExists " AND po.name GLOB ?",
        [.text (String.ofList (Text.escapeGlob value.describe.toList))]⟩
  | .poolCategory => ⟨poolExists " AND po.category = ?", [value]⟩
  | .parent =>
    if value = .text "any" then .plain "p.parent_id IS NOT NULL"
    else if value = .text "none" then .plain "p.parent_id IS NULL"
    else ⟨"(p.parent_id = ? OR p.post_id = ?)", [value, value]⟩
  | .child =>
    if value = .text "any" then .plain childExists else .plain ("NOT " ++ childExists)

/-- The statement of a flag. -/
def Flag.fragment (value : Bool) (flag : Flag) : Fragment :=
  ⟨"p." ++ flag.name ++ " = ?", [.integer (if value then 1 else 0)]⟩

/-- The statement of a predicate. -/
def Predicate.fragment : Predicate → Except Failure Fragment
  | .range column r category =>
    match column.expression? with
    | some expression => .ok (r.fragment expression [])
    | none => .ok (r.fragment categoryTagCountExpression [Value.ofInteger? category])
  | .pattern column text =>
    match column.expression? with
    | some expression =>
      .ok ⟨"LOWER(" ++ expression ++ ") LIKE ? ESCAPE '\\'",
        [.text (String.ofList (Text.escapeLike text.toList))]⟩
    | none => .error .unknownColumn
  | .flags columns value .all => .ok (.all (columns.map (Flag.fragment value)))
  | .flags columns value .any => .ok (.any (columns.map (Flag.fragment value)))
  | .relation r value => .ok (r.fragment value)
  | .never _ => .ok .never

/-- The statement of a condition. -/
def Condition.fragment (c : Condition) : Except Failure Fragment :=
  c.predicate.fragment.map fun f => if c.negated then f.negate else f

/-- What a plan requires of a row. -/
def Plan.whereFragment (p : Plan) : Except Failure Fragment :=
  match p.conditions.mapM Condition.fragment with
  | .error e => .error e
  | .ok conditions =>
    .ok (.all (p.required.map TagFilter.fragment ++
      (if p.optional.isEmpty then [] else [.any (p.optional.map TagFilter.fragment)]) ++
      p.negated.map (fun f => f.fragment.negate) ++ conditions))

/-- The rows that a plan draws from: posts, or entries of a pool when these give the order. -/
def Plan.fromFragment (p : Plan) : Fragment :=
  if p.order.key = .ordpool then
    ⟨"POSTS p JOIN POOL_POSTS opp ON opp.post_id = p.post_id " ++
      "JOIN POOLS opo ON opo.pool_id = opp.pool_id AND opo.name = ?", p.order.params.take 1⟩
  else .plain "POSTS p"

/-- The word of a direction. -/
def Direction.word : Direction → String
  | .asc => "ASC"
  | .desc => "DESC"

/-- The pairs of a value and its place that number a sequence from a place on. -/
def numbered : Nat → List Value → List Value
  | _, [] => []
  | place, v :: rest => v :: .integer place :: numbered (place + 1) rest

/-- An expression and the id, both in a direction. -/
def Direction.by (d : Direction) (expression : String) : String :=
  expression ++ " " ++ d.word ++ ", p.post_id " ++ d.word

/-- What rows are ordered by. -/
def Order.fragment (o : Order) : Except Failure Fragment :=
  match o.key with
  | .random => .ok (.plain "RANDOM()")
  | .custom =>
    .ok ⟨"CASE p.post_id " ++
      " ".intercalate (List.replicate o.params.length "WHEN ? THEN ?") ++ " END ASC",
      numbered 0 o.params⟩
  | .ordfav =>
    .ok ⟨"(SELECT MAX(f.favorite_id) FROM FAVORITES f JOIN USERS u ON u.user_id = f.user_id " ++
      "WHERE f.post_id = p.post_id AND u.name = ?) DESC, p.post_id DESC", o.params.take 1⟩
  | .ordpool => .ok (.plain "opp.position ASC")
  | .id => .ok (.plain ("p.post_id " ++ o.direction.word))
  | .score => .ok (.plain (o.direction.by "p.score"))
  | .favcount => .ok (.plain (o.direction.by "p.fav_count"))
  | .change => .ok (.plain (o.direction.by "p.updated_at"))
  | .mpixels => .ok (.plain (o.direction.by mpixelsExpression))
  | .filesize => .ok (.plain (o.direction.by "p.file_size"))
  | .tagcount => .ok (.plain (o.direction.by tagCountExpression))
  | .ratio => .ok (.plain (o.direction.by ratioExpression))
  | .categoryTags name =>
    match o.params with
    | code :: _ => .ok ⟨o.direction.by categoryTagCountExpression, [code]⟩
    | [] => .error (.badValue ("Unknown order: " ++ name))

/-- How many rows to return: the plan's limit comes before the caller's, and none is `-1`. -/
def Plan.effectiveLimit (p : Plan) (limit : Option Int) : Int :=
  (p.limit.or limit).getD (-1)

/-- The statement that returns the ids of the selected posts in order. -/
def Plan.selectStatement (p : Plan) (limit : Option Int) (offset : Int) :
    Except Failure Fragment :=
  match p.whereFragment, p.order.fragment with
  | .error e, _ => .error e
  | _, .error e => .error e
  | .ok wanted, .ok order =>
    let source := p.fromFragment
    .ok ⟨"SELECT p.post_id FROM " ++ source.text ++ " WHERE " ++ wanted.text ++ " ORDER BY " ++
      order.text ++ " LIMIT ? OFFSET ?",
      source.params ++ wanted.params ++ order.params ++
        [.integer (p.effectiveLimit limit), .integer offset]⟩

/-- The statement that returns the number of selected rows. -/
def Plan.countStatement (p : Plan) : Except Failure Fragment :=
  let source := p.fromFragment
  p.whereFragment.map fun wanted =>
    ⟨"SELECT COUNT(*) FROM " ++ source.text ++ " WHERE " ++ wanted.text,
      source.params ++ wanted.params⟩

end Imageboard.Query
