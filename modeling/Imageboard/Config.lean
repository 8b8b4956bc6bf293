import Imageboard.Category
import Imageboard.Text.Pattern

/-!
# Configuration

The policy of a board: how many tags a query may have and which tokens do not count, how long counts
are cached, what to answer when counting fails, and the categories of tags.
-/

namespace Imageboard

/-- The settings of a board. -/
structure Config where
  /-- The largest number of tags in a query. -/
  tagQueryLimit : Int
  /-- Shell patterns of the tokens that do not count toward the limit. -/
  unlimitedTagPatterns : List String
  /-- Whether metatags count toward the limit. -/
  countMetatagsAgainstLimit : Bool
  /-- The shortest time in seconds that a count is cached. -/
  countCacheMinTtl : Int
  /-- The longest time in seconds that a count is cached. -/
  countCacheMaxTtl : Int
  /-- The count of the blank query, and of a query whose counting fails. -/
  blankSearchFastCount : Option Int
  /-- The longest time in milliseconds that a statement may take. -/
  statementTimeoutMs : Option Int
  /-- How many posts a tag needs before it may be aliased, where that is checked. -/
  minimumAliasPostCount : Int
  /-- The categories of tags. -/
  categories : Categories
  deriving DecidableEq, Repr

namespace Config

/-- The settings of a board that configures none, with given categories. -/
def standardWith (categories : Categories) : Config where
  tagQueryLimit := 6
  unlimitedTagPatterns := ["rating:s*", "status:deleted", "-status:deleted", "limit:*"]
  countMetatagsAgainstLimit := false
  countCacheMinTtl := 180
  countCacheMaxTtl := 72000
  blankSearchFastCount := none
  statementTimeoutMs := some 3000
  minimumAliasPostCount := 50
  categories := categories

/-- The settings of a board that configures none. -/
def standard : Config :=
  standardWith Categories.standard

/-- Refuses settings that are out of range. -/
def validate (c : Config) : Except Failure Config :=
  let refuse (reason : String) : Except Failure Config := .error (.badValue reason)
  if c.tagQueryLimit < 1 then
    refuse ("tag_query_limit must be >= 1, got " ++ toString c.tagQueryLimit)
  else if c.countCacheMinTtl < 0 ∨ c.countCacheMaxTtl < c.countCacheMinTtl then
    refuse ("count_cache_min_ttl/count_cache_max_ttl must satisfy 0 <= min <= max, got " ++
      toString c.countCacheMinTtl ++ "/" ++ toString c.countCacheMaxTtl)
  else if c.statementTimeoutMs.any (· ≤ 0) then
    refuse ("statement_timeout_ms must be positive or null, got " ++
      toString (c.statementTimeoutMs.getD 0))
  else if c.minimumAliasPostCount < 0 then
    refuse ("minimum_alias_post_count must be >= 0, got " ++ toString c.minimumAliasPostCount)
  else if c.categories.toList.isEmpty then refuse "categories must not be empty"
  else .ok c

/-- Whether a token does not count toward the limit, letter case aside. -/
def isUnlimited (c : Config) (token : String) : Bool :=
  let text := Text.lower token.toList
  c.unlimitedTagPatterns.any fun pattern => Text.shellMatches pattern.toList text

/-- How many seconds a count is cached: as many as it is, within bounds. -/
def cacheTtl (c : Config) (count : Int) : Int :=
  max c.countCacheMinTtl (min count c.countCacheMaxTtl)

end Config

end Imageboard
