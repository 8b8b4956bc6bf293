import Imageboard.Search.Searcher
import Imageboard.Store.Tagging

/-!
# Counting through a cache

The number of posts that a query selects is remembered under the query's normal form, to which the
filters of the viewer are added as terms. A single tag is answered from its post count. A cache that
fails is passed over; a count that fails is answered by a fixed number if the board has one.
-/

namespace Imageboard

namespace Contents

/-- The remembered count of a key. -/
def findCount? (c : Contents) (key : String) : Option CachedCount :=
  c.cachedCounts.find? (·.key = key)

/-- Remembers a count. -/
def putCount (r : CachedCount) (c : Contents) : Contents :=
  { c with cachedCounts := c.cachedCounts.filter (·.key ≠ r.key) ++ [r] }

/-- Forgets the counts that have expired. -/
def dropExpired (isExpired : CachedCount → Bool) (c : Contents) : Contents :=
  { c with cachedCounts := c.cachedCounts.filter fun r => !isExpired r }

end Contents

namespace Searcher

open Query

/-- The time on the clock that counts expire by. -/
def time (s : Searcher) : Binary64 :=
  .ofInt (s.store.clock.wall - s.store.clock.ahead - s.counts.origin)

/-- Whether something that expires at one time has expired at another. -/
def hasExpired (now expiresAt : Binary64) : Bool :=
  match expiresAt.compare? now with
  | some .lt | some .eq => true
  | _ => false

/-- Replaces the counts that are remembered outside the store. -/
def setEntries (entries : List (String × Int × Binary64)) : SearchWork Unit :=
  modify fun s => { s with counts := { s.counts with backend := .memory entries } }

/-- The remembered count of a key that has not expired. -/
def cacheGet (key : String) : SearchWork (Option Int) := do
  let s ← get
  match s.counts.backend with
  | .broken => throw .cacheBroken
  | .table =>
    let found ← SearchWork.ofWork (Work.read [.countCache] [] fun c => c.findCount? key)
    return found.bind fun r => if hasExpired s.time r.expiresAt then none else some r.count
  | .memory entries =>
    match entries.find? (·.1 = key) with
    | none => return none
    | some (_, count, expiresAt) =>
      if hasExpired s.time expiresAt then
        setEntries (entries.filter (·.1 ≠ key))
        return none
      else return some count

/-- When something expires that is remembered from now on for some seconds, unless these are more than
any time can be. -/
def expiry (s : Searcher) (ttl : Int) : Except Failure Binary64 :=
  match Binary64.ofInt ttl with
  | .infinite _ => .error .overflow
  | duration => .ok (s.time.add duration)

/-- Remembers the count of a key for some seconds. -/
def cacheSet (key : String) (count ttl : Int) : SearchWork Unit := do
  let s ← get
  match s.counts.backend with
  | .broken => throw .cacheBroken
  | .table =>
    let expiresAt ← SearchWork.lift (s.expiry ttl)
    SearchWork.ofWork (Work.write [.countCache] [.integer count] fun c =>
      .ok ((), c.putCount ⟨key, count, expiresAt⟩))
  | .memory entries =>
    let expiresAt ← SearchWork.lift (s.expiry ttl)
    setEntries (entries.filter (·.1 ≠ key) ++ [(key, count, expiresAt)])

/-- Forgets the counts in the store that have expired and returns how many there were. -/
def cachePurge : SearchWork Int := do
  let now := (← get).time
  let isExpired (r : CachedCount) : Bool := hasExpired now r.expiresAt
  SearchWork.ofWork (Work.write [.countCache] [] fun c =>
    .ok (((c.cachedCounts.countP isExpired : Nat) : Int), c.dropExpired isExpired))

/-- How many counts are remembered outside the store. -/
def cacheSize (s : Searcher) : Nat :=
  match s.counts.backend with
  | .memory entries => entries.length
  | _ => 0

/-- Whether a query has a term on the status. -/
def mentionsStatus (config : Config) (query : String) : Except Failure Bool :=
  (terms config query).map fun ts => ts.any fun t => t.kind = .metatag && t.name = "status"

/-- The query with the filters of the viewer as terms at its end. -/
def effectiveQuery (config : Config) (viewer : Viewer) (query : String) : Except Failure String :=
  let query := if viewer.safeMode then query ++ " rating:s" else query
  if viewer.hideDeleted then
    (mentionsStatus config query).map fun mentioned =>
      if mentioned then query else query ++ " -status:deleted"
  else .ok query

/-- What the keys of counts begin with. -/
def keyMark : String := "pfc:"

/-- The key of the count of a query. -/
def cacheKey (config : Config) (viewer : Viewer) (query : String) : Except Failure String :=
  match effectiveQuery config viewer query with
  | .error e => .error e
  | .ok effective => (normalize effective).map (keyMark ++ ·)

/-- The single plain tag that a query in normal form consists of. -/
def soleTag? (config : Config) (normalized : String) : Except Failure (Option String) :=
  if normalized.isEmpty ∨ ' ' ∈ normalized.toList then .ok none
  else (terms config normalized).map fun
    | [t] => if t.kind = .tag ∧ t.polarity = .required then some t.name else none
    | _ => none

/-- The post count of the tag that a query in normal form consists of, if there is such a tag. -/
def simpleTagCount (config : Config) (normalized : String) : SearchWork (Option Int) := do
  match ← SearchWork.lift (soleTag? config normalized) with
  | none => return none
  | some name =>
    let target ← resolve name
    let tag ← SearchWork.ofWork (Store.getTag target)
    return tag.map (·.postCount)

/-- Counts the rows of a plan, or answers the fixed number if the store fails and there is one; also
says whether it counted. -/
def countOrFallBack (config : Config) (plan : Plan) : SearchWork (Int × Bool) :=
  ExceptT.mk fun s =>
    match (SearchWork.ofWork (Search.countPosts plan)).run.run s with
    | (.ok n, after) => (.ok (n, true), after)
    | (.error (.execution activity cause command), after) =>
      match config.blankSearchFastCount with
      | some n => (.ok (n, false), after)
      | none => (.error (.execution activity cause command), after)
    | (.error e, after) => (.error e, after)

/-- The number of posts that a query selects for a viewer, remembered or counted. -/
def fastCount (config : Config) (viewer : Viewer) (query : String) : SearchWork Int := do
  let effective ← SearchWork.lift (effectiveQuery config viewer query)
  let normalized ← SearchWork.lift (normalize effective)
  match normalized.isEmpty, config.blankSearchFastCount with
  | true, some n => return n
  | _, _ =>
    match ← simpleTagCount config normalized with
    | some n => return n
    | none =>
      let key := keyMark ++ normalized
      match (← (cacheGet key).attempt).join with
      | some n => return n
      | none =>
        let plan ← compile config viewer.withoutFilters effective
        let (n, counted) ← countOrFallBack config plan
        if counted then
          let _ ← (cacheSet key n (config.cacheTtl n)).attempt
        return n

end Searcher

end Imageboard
