import Imageboard.Store.Basic

/-!
# Maintenance

Making and dropping tables, listing the categories of the board in the store, and what maintenance
asks of the tables that are there. Maintenance works on the store from outside, so it sees only what
is committed and has to wait for whoever holds the store.
-/

namespace Imageboard

namespace Contents

/-- Makes the tables that are missing. -/
def withAllTables (c : Contents) : Contents :=
  { c with missing := [] }

/-- Whether a category can be listed beside those that are. -/
def canList (c : Contents) (r : CategoryRow) : Bool :=
  !c.categories.any fun q => q.code = r.code || q.name = r.name

/-- Lists the categories whose codes and names are not listed yet. -/
def listCategories (cs : Categories) (c : Contents) : Contents :=
  cs.toList.foldl (fun c k =>
    let r : CategoryRow := ⟨k.code, k.name, k.shortName⟩
    if c.canList r then { c with categories := c.categories ++ [r] } else c) c

/-- Listing categories changes the table of categories only. -/
theorem exists_listCategories_eq (cs : Categories) (c : Contents) :
    ∃ rows, c.listCategories cs = { c with categories := rows } := by
  rw [listCategories]
  induction cs.toList generalizing c with
  | nil => exact ⟨c.categories, rfl⟩
  | cons k rest ih =>
    rw [List.foldl_cons]
    dsimp only
    split
    · exact ih { c with categories := c.categories ++ [⟨k.code, k.name, k.shortName⟩] }
    · exact ih c

/-- The tables that have an index beside their keys, in the order in which the indexes are made. -/
def indexedTables : List Table :=
  [.taggings, .posts, .aliases, .implications, .favorites, .poolPosts, .votes]

/-- The contents without the records of a table. -/
def without (c : Contents) : Table → Contents
  | .users => { c with users := [] }
  | .categories => { c with categories := [] }
  | .tags => { c with tags := [] }
  | .posts => { c with posts := [] }
  | .taggings => { c with taggings := [] }
  | .aliases => { c with aliases := [] }
  | .implications => { c with implications := [] }
  | .wikiPages => { c with wikiPages := [] }
  | .artists => { c with artists := [] }
  | .pools => { c with pools := [] }
  | .poolPosts => { c with poolPosts := [] }
  | .favorites => { c with favorites := [] }
  | .votes => { c with votes := [] }
  | .countCache => { c with cachedCounts := [] }

/-- Drops a table, unless a record of another table refers to one of its records. -/
def drop (t : Table) (c : Contents) : Except StoreFault (Unit × Contents) :=
  let after := c.without t
  (requireReferences after.refers { after with missing := after.missing ++ [t] }).map ((), ·)

/-- A new store for a board: all tables, and its categories listed. -/
def initial (cs : Categories) : Except Failure Contents :=
  if cs.toList.all fun k => (Value.integer k.code).fits then .ok (empty.listCategories cs)
  else .error .overflow

/-- A new store has no records but those of its categories. -/
theorem initial_eq_ok {cs : Categories} {c : Contents} (h : initial cs = .ok c) :
    ∃ rows, c = { empty with categories := rows } := by
  rw [initial] at h
  split at h
  · obtain rfl := Except.ok.inj h
    exact exists_listCategories_eq cs empty
  · contradiction

end Contents

namespace Store

open Work

/-- Whether the store is being changed and nobody else can change it. -/
def isHeld (s : Store) : Bool :=
  s.heldElsewhere || s.isUnderWay

/-- Drops a table. -/
def dropTable (t : Table) : Work Unit := do
  requireTables [t]
  change (Contents.drop t)

/-- Makes sure that every table that is to be indexed exists. -/
def buildIndexes : Work Unit := do
  let c := (← get).contents
  match Contents.indexedTables.find? fun t => !c.has t with
  | some t => throw (.store (.noTable ("main." ++ t.name)))
  | none => return ()

/-- Lists the categories of a board. -/
def listCategories (cs : Categories) : Work Unit :=
  write [.categories] (cs.toList.map fun k => .integer k.code) fun c =>
    .ok ((), c.listCategories cs)

/-- Tidies the storage, which changes no record. -/
def optimize : Work Unit :=
  requireWritable

/-- Makes the tables that are missing. -/
def createTables : Work Unit := do
  if !(← get).contents.missing.isEmpty then
    change fun c => .ok ((), c.withAllTables)

/-- The store as someone from outside opens it. -/
def fromOutside (s : Store) (categories : Categories) : Store :=
  { ofContents s.committed s.clock categories with
    heldElsewhere := s.isHeld
    commitsFail := false }

/-- The store after someone from outside has worked on it. -/
def absorb (s other : Store) : Store :=
  if s.isHeld then s else { s with contents := other.contents }

/-- Does some work from outside, with the categories of a board. -/
def outside {α : Type} (categories : Categories) (w : Work α) : Work α :=
  ofRun fun s _ =>
    let (r, other) := w.runOn (s.fromOutside categories)
    (r, s.absorb other)

/-- All maintenance of a board's store: indexes, categories, storage. -/
def maintain (categories : Categories) : Work Unit := do
  outside categories buildIndexes
  outside categories (listCategories categories)
  outside categories optimize

/-- The store opened anew: what was open is lost, and missing tables are made. -/
def reopened (s : Store) : Store :=
  { ofContents s.committed.withAllTables s.clock s.categories with
    queue := s.queue
    log := s.log
    heldElsewhere := s.heldElsewhere
    commitsFail := s.commitsFail }

end Store

end Imageboard
