import Imageboard.Bulk.MassUpdate
import Imageboard.Search.CountCache
import Imageboard.Store.Maintenance

/-!
# Sessions

A session keeps a store open. Three searchers work on it: one answers queries, one counts through a
cache and one does jobs. Each of them remembers on its own what names stand for. Work of a session
can fail, and it can be given up; in both cases an enclosing block takes its changes back.
-/

namespace Imageboard

/-- An open store with its searchers. -/
structure Session where
  store : Store
  config : Config
  /-- What the searcher who answers queries remembers. -/
  queryAliases : AliasCache
  /-- What the searcher who counts remembers. -/
  countAliases : AliasCache
  /-- What the searcher who does jobs remembers. -/
  jobAliases : AliasCache
  counts : CountCache
  deriving DecidableEq, Repr

/-- Why work of a session ends early. -/
inductive Stop where
  | failure (cause : Failure)
  | givenUp
  deriving DecidableEq, Repr

/-- Work of a session. -/
abbrev SessionWork := ExceptT Stop (StateM Session)

namespace Session

/-- A session on a store that was just opened. -/
def start (store : Store) (config : Config) (counts : CountCache) : Session :=
  ⟨store, config, .fresh store, .fresh store, .fresh store, counts⟩

/-- A count cache without anything that is remembered outside the store. -/
def emptied (counts : CountCache) : CountCache :=
  match counts.backend with
  | .memory _ => { counts with backend := .memory [] }
  | _ => counts

/-- The session after its store was closed and opened again. -/
def reopened (s : Session) : Session :=
  start s.store.reopened s.config (emptied s.counts)

end Session

namespace SessionWork

variable {α : Type}

/-- Work on the store. -/
def ofWork (w : Work α) : SessionWork α :=
  ExceptT.mk fun s =>
    let (r, store) := w.runOn s.store
    (r.mapError Stop.failure, { s with store := store })

/-- Work of the searcher who answers queries. -/
def ofQuery (w : SearchWork α) : SessionWork α :=
  ExceptT.mk fun s =>
    let (r, after) := w.run.run ⟨s.store, s.queryAliases, s.counts⟩
    (r.mapError Stop.failure, { s with store := after.store, queryAliases := after.aliases })

/-- Work of the searcher who counts. -/
def ofCount (w : SearchWork α) : SessionWork α :=
  ExceptT.mk fun s =>
    let (r, after) := w.run.run ⟨s.store, s.countAliases, s.counts⟩
    (r.mapError Stop.failure,
      { s with store := after.store, countAliases := after.aliases, counts := after.counts })

/-- Work of the searcher who does jobs. -/
def ofJob (w : SearchWork α) : SessionWork α :=
  ExceptT.mk fun s =>
    let (r, after) := w.run.run ⟨s.store, s.jobAliases, s.counts⟩
    (r.mapError Stop.failure, { s with store := after.store, jobAliases := after.aliases })

/-- The result of some work, or why it ended early. -/
def caught (w : SessionWork α) : SessionWork (Except Stop α) :=
  ExceptT.mk fun s =>
    let (r, after) := w.run.run s
    (.ok r, after)

/-- Ends a block by a change of the store, which can fail. -/
def closeBlock (r : Except Stop α) (after : Session) (close : Except Failure Store) :
    Except Stop α × Session :=
  match close with
  | .ok store => (r, { after with store := store })
  | .error e => (.error (.failure e), after)

/-- Does all of some work or, if it ends early, none of it. -/
def atomic (w : SessionWork α) : SessionWork α :=
  ExceptT.mk fun s =>
    let store := s.store.setSavepoint
    let number := store.savepointCount
    match w.run.run { s with store := store } with
    | (.ok a, after) => closeBlock (.ok a) after (after.store.release number)
    | (.error e, after) => closeBlock (.error e) after (after.store.undo number)

/-- Takes a transaction back if some work ends early. -/
def orRollback (number : Nat) (w : SessionWork α) : SessionWork α :=
  ExceptT.mk fun s =>
    match w.run.run s with
    | (.ok a, after) => (.ok a, after)
    | (.error e, after) =>
      (.error e, { after with
        store := if after.store.isOpen number then after.store.rolledBack else after.store })

/-- Does some work in a transaction with a number, which is committed at the end unless the work
itself has ended it. -/
def inTransaction (number : Nat) (w : SessionWork α) : SessionWork α := do
  let a ← orRollback number w
  if (← get).store.isOpen number then ofWork (Work.commit number)
  return a

/-- Does the jobs that wait, each with the number of posts that it changed or why it failed. -/
def runJobs : SessionWork (List (Except Stop Int)) := do
  let s ← get
  set { s with store := { s.store with queue := [] } }
  s.store.queue.mapM fun job => caught (ofJob (Bulk.perform s.config job))

end SessionWork

end Imageboard
