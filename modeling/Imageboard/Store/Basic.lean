import Imageboard.Calendar.Moment
import Imageboard.Category
import Imageboard.Store.Contents

/-!
# The store

A store is its contents together with what is undone: the contents before the open transaction and
before each open savepoint. Work on a store reads and changes it and can fail; what was done before
a failure stays done, and only `atomic` and `inTransaction` take it back. Outside of these each statement
is committed by itself, and between two of them others can take hold of the store.
-/

namespace Imageboard

/-- A replacement of tags that is to be made later, on behalf of a user. -/
structure Job where
  query : String
  replacement : String
  actorId : Option Int
  actorName : Option String
  deriving DecidableEq, Repr

/-- What happens when a transaction has been committed. -/
inductive AfterCommit where
  /-- A job is put into the queue. -/
  | enqueue (job : Job)
  /-- A label is added to the log. -/
  | log (label : String)
  deriving DecidableEq, Repr

/-- A transaction that is open. -/
structure Transaction where
  /-- Which of the transactions of the store it is. -/
  number : Nat
  /-- The contents when it began. -/
  before : Contents
  afterCommit : List AfterCommit
  deriving DecidableEq, Repr

/-- A point that can be gone back to. -/
structure Savepoint where
  /-- Which of the savepoints of the store it is. -/
  number : Nat
  /-- The contents when it was set. -/
  before : Contents
  deriving DecidableEq, Repr

/-- A store as it is open for one user of it. -/
structure Store where
  contents : Contents
  transaction : Option Transaction
  /-- The open savepoints, the latest first. -/
  savepoints : List Savepoint
  /-- How many transactions were begun. -/
  transactionCount : Nat
  /-- How many savepoints were set. -/
  savepointCount : Nat
  /-- Changes whenever an alias may have changed. -/
  aliasGeneration : Nat
  /-- The jobs that wait to be run, the oldest first. -/
  queue : List Job
  /-- The labels of committed transactions. -/
  log : List String
  /-- The present time. -/
  clock : Moment
  /-- The categories of the board. -/
  categories : Categories
  /-- Whether someone else holds the store, so that it can be read only. -/
  heldElsewhere : Bool
  /-- Whether the disk fails when a transaction is committed. This is about transactions that were begun: a
  statement outside of them and the end of the outermost block reach the disk too, but never fail there. -/
  commitsFail : Bool
  deriving DecidableEq, Repr

/-- What others do while some work goes on: whether one of them has taken hold of the store when a statement
that is to change it finds it in some state. Work ends with the first statement that is refused, so it does
not matter that all statements which find the store in the same state fare alike. -/
abbrev Others := Store → Bool

/-- Nobody else does anything. -/
def Others.absent : Others := fun _ => false

/-- Work on a store that can fail. -/
abbrev Work := ReaderT Others (ExceptT Failure (StateM Store))

namespace Store

/-- A store with given contents and nothing open. -/
def ofContents (contents : Contents) (clock : Moment) (categories : Categories) : Store where
  contents := contents
  transaction := none
  savepoints := []
  transactionCount := 0
  savepointCount := 0
  aliasGeneration := 0
  queue := []
  log := []
  clock := clock
  categories := categories
  heldElsewhere := false
  commitsFail := false

/-- What others see: the contents before anything that is open. -/
def committed (s : Store) : Contents :=
  match s.transaction, s.savepoints.getLast? with
  | some t, _ => t.before
  | none, some p => p.before
  | none, none => s.contents

/-- Whether something is under way that is not committed. -/
def isUnderWay (s : Store) : Bool :=
  s.transaction.isSome || s.contents ≠ s.committed

/-- Whether a change is refused. Others cannot take hold of the store while something is under way. A block
that has changed nothing yet is taken not to keep them out. -/
def isRefused (s : Store) (others : Others) : Bool :=
  s.heldElsewhere || others s && !s.isUnderWay

/-- The time stamp of the present. -/
def stamp (s : Store) : Value :=
  .ofText? s.clock.stamp?

/-- Sets a savepoint. -/
def setSavepoint (s : Store) : Store :=
  { s with
    savepointCount := s.savepointCount + 1
    savepoints := ⟨s.savepointCount + 1, s.contents⟩ :: s.savepoints }

/-- The failure to find a savepoint. -/
def lostSavepoint (number : Nat) : Failure :=
  .store (.noSavepoint ("sp_" ++ toString number))

/-- The savepoint with a number and those set before it. -/
def savepointsFrom (number : Nat) : List Savepoint → Option (Savepoint × List Savepoint)
  | [] => none
  | p :: rest => if p.number = number then some (p, rest) else savepointsFrom number rest

/-- Goes back to a savepoint and removes it. -/
def undo (s : Store) (number : Nat) : Except Failure Store :=
  match savepointsFrom number s.savepoints with
  | some (p, rest) => .ok { s with contents := p.before, savepoints := rest }
  | none => .error (lostSavepoint number)

/-- Removes a savepoint and keeps what was done since. -/
def release (s : Store) (number : Nat) : Except Failure Store :=
  match savepointsFrom number s.savepoints with
  | some (_, rest) => .ok { s with savepoints := rest }
  | none => .error (lostSavepoint number)

/-- Whether the transaction with a number is open. -/
def isOpen (s : Store) (number : Nat) : Bool :=
  s.transaction.any (·.number = number)

/-- Does what is to be done after a commit. -/
def perform (s : Store) : AfterCommit → Store
  | .enqueue job => { s with queue := s.queue ++ [job] }
  | .log label => { s with log := s.log ++ [label] }

/-- Ends the open transaction and takes back what was done in it. -/
def rolledBack (s : Store) : Store :=
  match s.transaction with
  | some t =>
    { s with
      contents := t.before
      transaction := none
      savepoints := []
      aliasGeneration := s.aliasGeneration + 1 }
  | none => s

/-- Ends the open transaction and keeps what was done in it. -/
def finished (s : Store) : Store :=
  match s.transaction with
  | some t => t.afterCommit.foldl perform { s with transaction := none, savepoints := [] }
  | none => s

end Store

namespace Work

variable {α : Type}

/-- The result or the failure of some work on a store, with the store that it leaves. -/
def runOn (w : Work α) (s : Store) (others : Others := .absent) : Except Failure α × Store :=
  (ReaderT.run w others).run.run s

/-- Work as it is done while others do nothing. -/
def run (w : Work α) : ExceptT Failure (StateM Store) α :=
  ExceptT.mk fun s => w.runOn s

/-- Work that is given by what it does to a store amid others. -/
def ofRun (f : Store → Others → Except Failure α × Store) : Work α :=
  fun others => ExceptT.mk fun s => f s others

/-- The failure or the result of a plain computation. -/
def lift (r : Except Failure α) : Work α :=
  ofRun fun s _ => (r, s)

/-- Says otherwise why some work failed. -/
def adapt (f : Failure → Failure) (w : Work α) : Work α :=
  ofRun fun s others =>
    let (r, after) := w.runOn s others
    (r.mapError f, after)

/-- Refuses work on tables that do not exist. -/
def requireTables (ts : List Table) : Work Unit := do
  let s ← get
  match ts.find? fun t => !s.contents.has t with
  | some t => throw (.store (.noTable t.name))
  | none => return ()

/-- Refuses changes to a table whose references point to a table that does not exist. -/
def requireParents (t : Table) : Work Unit := do
  let s ← get
  match t.parents.find? fun p => !s.contents.has p with
  | some p => throw (.store (.noTable ("main." ++ p.name)))
  | none => return ()

/-- Refuses values that a statement cannot take. -/
def requireFits (vs : List Value) : Work Unit :=
  if vs.all Value.fits then pure () else throw .overflow

/-- Refuses changes while someone else holds the store. -/
def requireWritable : Work Unit := do
  if (← get).isRefused (← readThe Others) then throw (.store .locked)

/-- Reads tables. -/
def read (ts : List Table) (params : List Value) (f : Contents → α) : Work α := do
  requireTables ts
  requireFits params
  return f (← get).contents

/-- Changes the contents as a whole or not at all. -/
def change (f : Contents → Except StoreFault (α × Contents)) : Work α := do
  requireWritable
  match f (← get).contents with
  | .error e => throw (.store e)
  | .ok (a, c) =>
    modify fun s => { s with contents := c }
    return a

/-- A change to the first of some tables, of which the others are read. -/
def write (ts : List Table) (params : List Value)
    (f : Contents → Except StoreFault (α × Contents)) : Work α := do
  requireTables ts
  requireFits params
  change f

/-- A change to a table whose records refer to records of other tables. -/
def writeReferring (t : Table) (params : List Value)
    (f : Contents → Except StoreFault (α × Contents)) : Work α := do
  requireTables [t]
  requireParents t
  requireFits params
  change f

/-- Does all of some work or, if it fails, none of it. -/
def atomic (w : Work α) : Work α :=
  ofRun fun s others =>
    let start := s.setSavepoint
    let number := start.savepointCount
    match w.runOn start others with
    | (.ok a, after) =>
      match after.release number with
      | .ok done => (.ok a, done)
      | .error e => (.error e, after)
    | (.error e, after) =>
      match after.undo number with
      | .ok undone => (.error e, undone)
      | .error lost => (.error lost, after)

/-- Begins a transaction and returns its number. -/
def begin : Work Nat := do
  let s ← get
  if s.transaction.isSome then throw .transactionActive
  else if !s.savepoints.isEmpty then throw (.execution .beginning .nestedBegin none)
  else if s.isRefused (← readThe Others) then throw (.execution .beginning .locked none)
  else
    let number := s.transactionCount + 1
    set { s with transaction := some ⟨number, s.contents, []⟩, transactionCount := number }
    return number

/-- Has something done once the transaction with a number is committed. -/
def afterCommit (number : Nat) (action : AfterCommit) : Work Unit :=
  modify fun s =>
    match s.transaction with
    | some t =>
      if t.number = number then
        { s with transaction := some { t with afterCommit := t.afterCommit ++ [action] } }
      else s
    | none => s

/-- Takes back the transaction with a number, if it is open. -/
def rollback (number : Nat) : Work Unit :=
  modify fun s => if s.isOpen number then s.rolledBack else s

/-- Commits the transaction with a number; if that fails it is taken back. -/
def commit (number : Nat) : Work Unit := do
  let s ← get
  if !s.isOpen number then throw .transactionInactive
  else if s.commitsFail then
    set s.rolledBack
    throw (.execution .committing .diskError none)
  else set s.finished

/-- Does some work in a transaction of its own, which is committed at the end, unless the work
itself has ended it, and taken back if the work fails. -/
def inTransaction (w : Nat → Work α) : Work α := do
  let number ← begin
  ofRun fun s others =>
    match (w number).runOn s others with
    | (.error e, after) => (.error e, if after.isOpen number then after.rolledBack else after)
    | (.ok a, after) =>
      if after.isOpen number then (do commit number; return a : Work α).runOn after others
      else (.ok a, after)

end Work

end Imageboard
