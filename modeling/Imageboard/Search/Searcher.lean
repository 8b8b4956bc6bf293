import Imageboard.Query.Compile
import Imageboard.Search.Selection
import Imageboard.Store.Relationships

/-!
# Searchers

A searcher works on a store and remembers two kinds of answer: what names stand for, and how many
posts queries select. Names are remembered as long as the alias generation of the store stays the
same.
-/

namespace Imageboard

/-- What names stood for in an alias generation. -/
structure AliasCache where
  generation : Nat
  entries : List (String × String)
  deriving DecidableEq, Repr

/-- Where counts are remembered. -/
inductive CountBackend where
  /-- Outside the store: counts by key, with the time at which they expire. -/
  | memory (entries : List (String × Int × Binary64))
  /-- In a table of the store. -/
  | table
  /-- Nowhere: each access fails. -/
  | broken
  deriving DecidableEq, Repr

/-- Remembered counts, and the moment, in seconds since the start of the year one, from which the
clock that they expire by counts. -/
structure CountCache where
  backend : CountBackend
  origin : Int
  deriving DecidableEq, Repr

/-- A store with what a searcher remembers about it. -/
structure Searcher where
  store : Store
  aliases : AliasCache
  counts : CountCache
  deriving DecidableEq, Repr

/-- Work of a searcher that can fail. -/
abbrev SearchWork := ExceptT Failure (StateM Searcher)

namespace AliasCache

/-- Nothing remembered about a store. -/
def fresh (s : Store) : AliasCache :=
  ⟨s.aliasGeneration, []⟩

/-- What is remembered of an alias generation. -/
def current (a : AliasCache) (generation : Nat) : AliasCache :=
  if a.generation = generation then a else ⟨generation, []⟩

/-- What a name stands for, if that is remembered. -/
def find? (a : AliasCache) (name : String) : Option String :=
  (a.entries.find? (·.1 = name)).map (·.2)

/-- Remembers what a name stands for. -/
def put (a : AliasCache) (name target : String) : AliasCache :=
  { a with entries := (name, target) :: a.entries }

end AliasCache

namespace SearchWork

variable {α : Type}

/-- The failure or the result of a plain computation. -/
def lift (r : Except Failure α) : SearchWork α :=
  ExceptT.mk (pure r)

/-- Work on the store, done by a searcher. -/
def ofWork (w : Work α) : SearchWork α :=
  ExceptT.mk fun s =>
    let (r, store) := w.runOn s.store
    (r, { s with store := store })

/-- The result of some work, or nothing if it fails. -/
def attempt (w : SearchWork α) : SearchWork (Option α) :=
  ExceptT.mk fun s =>
    match w.run.run s with
    | (.ok a, after) => (.ok (some a), after)
    | (.error _, after) => (.ok none, after)

/-- Work of a searcher who remembers no names, with a count cache, done on a store. -/
def onStoreCounting (counts : CountCache) (w : SearchWork α) : Work α :=
  Work.ofRun fun s _ =>
    let (r, after) := w.run.run ⟨s, .fresh s, counts⟩
    (r, after.store)

/-- Work of a searcher who remembers nothing, done on a store. -/
def onStore (w : SearchWork α) : Work α :=
  w.onStoreCounting ⟨.broken, 0⟩

end SearchWork

namespace Searcher

/-- What a name stands for: the consequent of its alias in force, or else itself. -/
def resolve (name : String) : SearchWork String := do
  modify fun s => { s with aliases := s.aliases.current s.store.aliasGeneration }
  match (← get).aliases.find? name with
  | some target => return target
  | none =>
    let target := (← SearchWork.ofWork (Store.activeAliasConsequent name)).getD name
    modify fun s => { s with aliases := s.aliases.put name target }
    return target

/-- What some names stand for, one after the other. -/
def resolveEach : List String → SearchWork (List (String × String))
  | [] => return []
  | name :: rest => do
    let target ← resolve name
    let more ← resolveEach rest
    return (name, target) :: more

/-- What a name stands for by a list of answers. -/
def lookUp (answers : List (String × String)) (name : String) : String :=
  ((answers.find? (·.1 = name)).map (·.2)).getD name

/-- The plan of a query. -/
def compile (config : Config) (viewer : Viewer) (query : String) : SearchWork Query.Plan := do
  let clock := (← get).store.clock
  let terms ← SearchWork.lift (Query.checkedTerms config query)
  let answers ← resolveEach (Query.aliasLookups config viewer clock terms)
  SearchWork.lift (Query.planOf config (lookUp answers) viewer clock query terms)

/-- The ids of the posts that a query selects, in order. -/
def search (config : Config) (viewer : Viewer) (query : String) (limit : Option Int)
    (offset : Int) : SearchWork (List Int) := do
  let plan ← compile config viewer query
  SearchWork.ofWork (Search.selectPostIds plan limit offset)

/-- The number of rows that a query selects. -/
def count (config : Config) (viewer : Viewer) (query : String) : SearchWork Int := do
  let plan ← compile config viewer query
  SearchWork.ofWork (Search.countPosts plan)

end Searcher

namespace Store

/-- The ids of the posts that a query selects, in order, found by a searcher who remembers
nothing. -/
def tagMatch (config : Config) (viewer : Viewer) (query : String) (limit : Option Int) :
    Work (List Int) :=
  (Searcher.search config viewer query limit 0).onStore

end Store

end Imageboard
