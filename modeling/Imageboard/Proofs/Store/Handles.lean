import Imageboard.Proofs.Store.Transactions
import Mathlib.Data.List.Nodup

/-!
# Handles of transactions

Whoever begins a transaction holds a handle of it, with a flag that says whether it is active and
with what was registered to be done after its commit. A handle loses its flag when it is committed,
whether or not that succeeds, and when it is rolled back; nothing else moves the flags. The store
knows nothing of handles that were used up: it records the open transaction only.

The main statement is about all runs that use handles in any order, old ones beside the active one.
It says that flags and record stay in step, that exactly the handles whose own commit succeeded have
done what was registered with them, and that a handle that was used up has no effect any more.
-/

namespace Imageboard

variable {t : Transaction}

namespace Store

/-- A transaction is open if and only if it is the one that the store records. -/
theorem isOpen_of_some {s : Store} (h : s.transaction = some t) (number : Nat) :
    s.isOpen number = decide (t.number = number) := by
  rw [Store.isOpen, h]
  rfl

/-- Nothing is open if the store records nothing. -/
theorem isOpen_of_none {s : Store} (h : s.transaction = none) (number : Nat) :
    s.isOpen number = false := by
  rw [Store.isOpen, h]
  rfl

/-- A transaction that is open is the one that the store records. -/
theorem exists_of_isOpen {s : Store} {number : Nat} (h : s.isOpen number = true) :
    ∃ t, s.transaction = some t ∧ t.number = number := by
  cases ht : s.transaction with
  | none => simp [isOpen_of_none ht] at h
  | some t => exact ⟨t, rfl, of_decide_eq_true (isOpen_of_some ht number ▸ h)⟩

end Store

namespace Work

/-- A rollback of a transaction that is not open leaves the store alone. -/
theorem runOn_rollback_of_closed {s : Store} {number : Nat} (hclosed : s.isOpen number = false) :
    (rollback number).runOn s = (.ok (), s) := by
  rw [rollback, runOn_modify, hclosed]
  rfl

/-- A rollback of a transaction that is open takes it back. -/
theorem runOn_rollback_of_open {s : Store} {number : Nat} (hopen : s.isOpen number = true) :
    (rollback number).runOn s = (.ok (), s.rolledBack) := by
  rw [rollback, runOn_modify, if_pos hopen]

/-- Registering with a transaction that is not open leaves the store alone. -/
theorem runOn_afterCommit_of_closed {s : Store} {number : Nat} (action : AfterCommit)
    (hclosed : s.isOpen number = false) :
    (afterCommit number action).runOn s = (.ok (), s) := by
  rw [afterCommit, runOn_modify]
  cases ht : s.transaction with
  | none => rfl
  | some t =>
    rw [Store.isOpen_of_some ht, decide_eq_false_iff_not] at hclosed
    dsimp only
    rw [if_neg hclosed]

/-- Registering with the open transaction puts the action last. -/
theorem runOn_afterCommit_of_some {s : Store} (ht : s.transaction = some t) (action : AfterCommit) :
    (afterCommit t.number action).runOn s =
      (.ok (), { s with transaction := some { t with afterCommit := t.afterCommit ++ [action] } }) := by
  rw [afterCommit, runOn_modify, ht]
  dsimp only
  rw [if_pos rfl]

end Work

/-- A handle of a transaction. -/
structure Handle where
  number : Nat
  active : Bool
  /-- What was registered to be done after the commit, in order. -/
  callbacks : List AfterCommit
  deriving DecidableEq, Repr

namespace Handle

/-- The handle after it was committed or rolled back, if it has the number. -/
def finish (number : Nat) (h : Handle) : Handle :=
  if h.number = number then { h with active := false } else h

/-- The handle after something was registered with it, if it has the number. -/
def register (number : Nat) (action : AfterCommit) (h : Handle) : Handle :=
  if h.number = number then { h with callbacks := h.callbacks ++ [action] } else h

@[simp] theorem number_finish (number : Nat) (h : Handle) : (h.finish number).number = h.number := by
  rw [finish]
  split <;> rfl

@[simp] theorem callbacks_finish (number : Nat) (h : Handle) :
    (h.finish number).callbacks = h.callbacks := by
  rw [finish]
  split <;> rfl

@[simp] theorem active_finish (number : Nat) (h : Handle) :
    (h.finish number).active = (h.active && decide (h.number ≠ number)) := by
  rw [finish]
  split <;> simp_all

@[simp] theorem number_register (number : Nat) (action : AfterCommit) (h : Handle) :
    (h.register number action).number = h.number := by
  rw [register]
  split <;> rfl

@[simp] theorem active_register (number : Nat) (action : AfterCommit) (h : Handle) :
    (h.register number action).active = h.active := by
  rw [register]
  split <;> rfl

end Handle

/-- The handle of an open transaction. -/
def Transaction.handle (t : Transaction) : Handle :=
  ⟨t.number, true, t.afterCommit⟩

/-- What is done on a store by those who hold handles of its transactions. -/
inductive Act where
  | begin
  | register (number : Nat) (action : AfterCommit)
  | commit (number : Nat)
  | rollback (number : Nat)
  /-- Anything else happens to the store, to its tables for example, that neither begins nor ends a
  transaction and performs nothing that was put off. -/
  | other (change : Store → Store)

/-- What an act registers with the handle that has a number. -/
def Act.registered? (number : Nat) : Act → Option AfterCommit
  | .register n action => if n = number then some action else none
  | _ => none

/-- A store with the handles of the transactions that were begun on it. -/
structure Desk where
  store : Store
  handles : List Handle
  /-- The handles whose commit succeeded, in this order and as they were then. -/
  committed : List Handle
  /-- The handles that were rolled back or whose commit failed. -/
  takenBack : List Handle

namespace Desk

/-- A store on which no transaction was begun by anyone who is here. -/
def ofStore (s : Store) : Desk :=
  ⟨s, [], [], []⟩

/-- The active handles with a number. -/
def live (d : Desk) (number : Nat) : List Handle :=
  d.handles.filter fun h => h.active && h.number = number

/-- Begins a transaction, which gives a new handle if it succeeds. -/
def begin (d : Desk) : Desk :=
  match Work.begin.runOn d.store with
  | (.ok number, t) => { d with store := t, handles := d.handles ++ [⟨number, true, []⟩] }
  | (.error _, t) => { d with store := t }

/-- Registers something to be done after the commit of a handle. -/
def register (d : Desk) (number : Nat) (action : AfterCommit) : Desk :=
  { d with
    store := ((Work.afterCommit number action).runOn d.store).2
    handles := d.handles.map (Handle.register number action) }

/-- Commits a handle. -/
def commit (d : Desk) (number : Nat) : Desk :=
  match (Work.commit number).runOn d.store with
  | (.ok (), t) =>
    { d with
      store := t
      handles := d.handles.map (Handle.finish number)
      committed := d.committed ++ d.live number }
  | (.error _, t) =>
    { d with
      store := t
      handles := d.handles.map (Handle.finish number)
      takenBack := d.takenBack ++ d.live number }

/-- Rolls a handle back. -/
def rollback (d : Desk) (number : Nat) : Desk :=
  { d with
    store := ((Work.rollback number).runOn d.store).2
    handles := d.handles.map (Handle.finish number)
    takenBack := d.takenBack ++ d.live number }

/-- Changes the store in any way that leaves its transactions and what was performed alone. -/
def other (d : Desk) (change : Store → Store) : Desk :=
  { d with
    store := { change d.store with
      transaction := d.store.transaction
      transactionCount := d.store.transactionCount
      queue := d.store.queue
      log := d.store.log } }

/-- The desk after one act. -/
def act (d : Desk) : Act → Desk
  | .begin => d.begin
  | .register number action => d.register number action
  | .commit number => d.commit number
  | .rollback number => d.rollback number
  | .other change => d.other change

/-- The desk after some acts. -/
def run (d : Desk) (acts : List Act) : Desk :=
  acts.foldl act d

/-- What the committed handles have done. -/
def performed (d : Desk) : List AfterCommit :=
  d.committed.flatMap Handle.callbacks

/-- The handles are in step with the record of the store. -/
structure InStep (d : Desk) : Prop where
  /-- The flags say which transaction the store records. -/
  active_eq : ∀ h ∈ d.handles, h.active = d.store.isOpen h.number
  /-- The transaction that the store records has an active handle with the same callbacks. -/
  recorded : ∀ t ∈ d.store.transaction, t.handle ∈ d.handles
  nodup : (d.handles.map Handle.number).Nodup
  number_le : ∀ h ∈ d.handles, h.number ≤ d.store.transactionCount
  /-- A handle is used up at most once. -/
  nodup_ended : ((d.committed ++ d.takenBack).map Handle.number).Nodup
  ended : ∀ g ∈ d.committed ++ d.takenBack, ∃ h ∈ d.handles, h.number = g.number ∧ h.active = false

variable {d : Desk}

/-- Handles with the same number are the same. -/
theorem InStep.eq_of_number_eq (hd : d.InStep) {g h : Handle} (hg : g ∈ d.handles)
    (hh : h ∈ d.handles) (heq : g.number = h.number) : g = h :=
  List.inj_on_of_nodup_map hd.nodup hg hh heq

/-- The active handle is the one that the store records. -/
theorem InStep.live_of_some (hd : d.InStep) (ht : d.store.transaction = some t) :
    d.live t.number = [t.handle] := by
  have hmem := hd.recorded t ht
  have hnodup : d.handles.Nodup := List.Nodup.of_map _ hd.nodup
  have hfilter : d.live t.number = d.handles.filter (· = t.handle) := by
    refine List.filter_congr fun h hh => ?_
    rw [hd.active_eq h hh, Store.isOpen_of_some ht]
    rw [Bool.eq_iff_iff]
    simp only [Bool.and_eq_true, decide_eq_true_eq]
    refine ⟨fun ⟨_, hnumber⟩ => hd.eq_of_number_eq hh hmem hnumber, ?_⟩
    rintro rfl
    exact ⟨rfl, rfl⟩
  rw [hfilter, List.filter_eq, List.count_eq_one_of_mem hnodup hmem]
  rfl

/-- No handle of a transaction that is not open is active. -/
theorem InStep.active_of_closed (hd : d.InStep) {number : Nat}
    (hclosed : d.store.isOpen number = false) {h : Handle} (hh : h ∈ d.handles)
    (hnumber : h.number = number) : h.active = false := by
  rw [hd.active_eq h hh, hnumber, hclosed]

theorem InStep.live_of_closed (hd : d.InStep) {number : Nat}
    (hclosed : d.store.isOpen number = false) : d.live number = [] := by
  refine List.filter_eq_nil_iff.2 fun h hh => ?_
  simp only [Bool.and_eq_true, decide_eq_true_eq, not_and]
  intro hactive hnumber
  exact absurd hactive (by simp [hd.active_of_closed hclosed hh hnumber])

/-- Using a handle up that is used up already moves no flag. -/
theorem InStep.map_finish_of_closed (hd : d.InStep) {number : Nat}
    (hclosed : d.store.isOpen number = false) :
    d.handles.map (Handle.finish number) = d.handles := by
  have hsame : ∀ h ∈ d.handles, h.finish number = h := by
    intro h hh
    rw [Handle.finish]
    split
    next hnumber => rw [← hd.active_of_closed hclosed hh hnumber]
    next => rfl
  exact (List.map_congr_left hsame).trans (List.map_id' _)

/-! ## What each act does -/

/-- A commit of a handle that is used up changes nothing at all. -/
theorem InStep.commit_of_closed (hd : d.InStep) {number : Nat}
    (hclosed : d.store.isOpen number = false) : d.commit number = d := by
  rw [commit, Work.runOn_commit_of_closed hclosed]
  dsimp only
  rw [hd.map_finish_of_closed hclosed, hd.live_of_closed hclosed, List.append_nil]

/-- A rollback of a handle that is used up changes nothing at all. -/
theorem InStep.rollback_of_closed (hd : d.InStep) {number : Nat}
    (hclosed : d.store.isOpen number = false) : d.rollback number = d := by
  rw [rollback, Work.runOn_rollback_of_closed hclosed, hd.map_finish_of_closed hclosed,
    hd.live_of_closed hclosed, List.append_nil]

/-- A commit that works does what was registered with the active handle, and uses it up. -/
theorem InStep.commit_of_open (hd : d.InStep) (ht : d.store.transaction = some t)
    (hworks : d.store.commitsFail = false) :
    d.commit t.number =
      { d with
        store := d.store.finished
        handles := d.handles.map (Handle.finish t.number)
        committed := d.committed ++ [t.handle] } := by
  have hopen : d.store.isOpen t.number = true := by simp [Store.isOpen_of_some ht]
  rw [commit, Work.runOn_commit_of_open hopen hworks, hd.live_of_some ht]

/-- A commit that fails takes the transaction back, and uses the handle up. -/
theorem InStep.commit_of_failing (hd : d.InStep) (ht : d.store.transaction = some t)
    (hfails : d.store.commitsFail = true) :
    d.commit t.number =
      { d with
        store := d.store.rolledBack
        handles := d.handles.map (Handle.finish t.number)
        takenBack := d.takenBack ++ [t.handle] } := by
  have hopen : d.store.isOpen t.number = true := by simp [Store.isOpen_of_some ht]
  rw [commit, Work.runOn_commit_of_failing hopen hfails, hd.live_of_some ht]

/-- A rollback of the active handle takes the transaction back, and uses the handle up. -/
theorem InStep.rollback_of_open (hd : d.InStep) (ht : d.store.transaction = some t) :
    d.rollback t.number =
      { d with
        store := d.store.rolledBack
        handles := d.handles.map (Handle.finish t.number)
        takenBack := d.takenBack ++ [t.handle] } := by
  have hopen : d.store.isOpen t.number = true := by simp [Store.isOpen_of_some ht]
  rw [rollback, Work.runOn_rollback_of_open hopen, hd.live_of_some ht]

/-- A transaction begins on an idle store, and its handle is active. -/
theorem begin_of_idle (h : d.store.Idle) :
    d.begin =
      { d with
        store := d.store.begun
        handles := d.handles ++ [⟨d.store.transactionCount + 1, true, []⟩] } := by
  rw [begin, Work.runOn_begin_of_idle h]

/-- No transaction begins on another store. -/
theorem begin_of_not_idle (h : ¬ d.store.Idle) : d.begin = d := by
  obtain ⟨e, he⟩ := Work.runOn_begin_of_not_idle h
  rw [begin, he]

/-! ## Handles stay in step -/

/-- The handle of the open transaction was not used up before. -/
theorem InStep.not_ended (hd : d.InStep) (ht : d.store.transaction = some t) {g : Handle}
    (hg : g ∈ d.committed ++ d.takenBack) : g.number ≠ t.number := by
  intro hnumber
  obtain ⟨h, hh, heq, hoff⟩ := hd.ended g hg
  have hrecorded := hd.eq_of_number_eq hh (hd.recorded t ht) (heq.trans hnumber)
  rw [hrecorded] at hoff
  contradiction

/-- Using the active handle up keeps the handles in step with a store that records nothing. -/
theorem InStep.finish (hd : d.InStep) (ht : d.store.transaction = some t) {s : Store}
    (hs : s.transaction = none) (hcount : s.transactionCount = d.store.transactionCount)
    {committed takenBack : List Handle}
    (hended : (committed ++ takenBack).Perm
      (t.handle :: (d.committed ++ d.takenBack))) :
    InStep ⟨s, d.handles.map (Handle.finish t.number), committed, takenBack⟩ where
  active_eq := by
    refine List.forall_mem_map.2 fun h hh => ?_
    rw [Handle.active_finish, hd.active_eq h hh, Store.isOpen_of_some ht, Store.isOpen_of_none hs]
    by_cases hnumber : t.number = h.number
    · simp [hnumber]
    · simp [hnumber]
  recorded u hu := by simp [hs] at hu
  nodup := by
    rw [List.map_map]
    exact (List.map_congr_left fun h _ => Handle.number_finish _ h) ▸ hd.nodup
  number_le := by
    refine List.forall_mem_map.2 fun h hh => ?_
    rw [Handle.number_finish, hcount]
    exact hd.number_le h hh
  nodup_ended := by
    refine (hended.map Handle.number).nodup_iff.2 (List.nodup_cons.2 ⟨?_, hd.nodup_ended⟩)
    intro hmem
    obtain ⟨g, hg, hnumber⟩ := List.mem_map.1 hmem
    exact hd.not_ended ht hg hnumber
  ended g hg := by
    have hold : ∀ h ∈ d.handles, h.number = g.number → h.active = false ∨ h.number = t.number →
        ∃ k ∈ d.handles.map (Handle.finish t.number), k.number = g.number ∧ k.active = false := by
      intro h hh hnumber hoff
      refine ⟨h.finish t.number, List.mem_map_of_mem hh, by simpa using hnumber, ?_⟩
      rw [Handle.active_finish]
      rcases hoff with hoff | hoff <;> simp [hoff]
    rcases List.mem_cons.1 (hended.mem_iff.1 hg) with rfl | hg
    · exact hold _ (hd.recorded t ht) rfl (Or.inr rfl)
    · obtain ⟨h, hh, hnumber, hoff⟩ := hd.ended g hg
      exact hold h hh hnumber (Or.inl hoff)

/-- Beginning a transaction keeps the handles in step. -/
theorem InStep.begin (hd : d.InStep) : d.begin.InStep := by
  by_cases hidle : d.store.Idle
  · rw [begin_of_idle hidle]
    have hnew : ∀ h ∈ d.handles, h.number ≠ d.store.transactionCount + 1 := fun h hh =>
      Nat.ne_of_lt (Nat.lt_succ_of_le (hd.number_le h hh))
    have hbegun (number : Nat) :
        d.store.begun.isOpen number = decide (d.store.transactionCount + 1 = number) := rfl
    exact {
      active_eq := by
        refine List.forall_mem_append.2 ⟨fun h hh => ?_, ?_⟩
        · rw [hd.active_eq h hh, Store.isOpen_of_none hidle.transaction, hbegun]
          exact (decide_eq_false (hnew h hh).symm).symm
        · rw [List.forall_mem_singleton, hbegun]
          exact (decide_eq_true rfl).symm
      recorded := fun t ht => by
        obtain rfl := Option.some.inj ht
        exact List.mem_append_right _ (List.mem_singleton_self _)
      nodup := by
        rw [List.map_append, List.nodup_append]
        refine ⟨hd.nodup, List.nodup_singleton _, ?_⟩
        intro a ha b hb
        obtain ⟨h, hh, rfl⟩ := List.mem_map.1 ha
        obtain rfl := List.mem_singleton.1 hb
        exact hnew h hh
      number_le := by
        refine List.forall_mem_append.2 ⟨fun h hh => ?_, ?_⟩
        · exact Nat.le_succ_of_le (hd.number_le h hh)
        · exact (List.forall_mem_singleton).2 (Nat.le_refl _)
      nodup_ended := hd.nodup_ended
      ended := fun g hg => by
        obtain ⟨h, hh, hoff⟩ := hd.ended g hg
        exact ⟨h, List.mem_append_left _ hh, hoff⟩ }
  · rwa [begin_of_not_idle hidle]

/-- Registering something keeps the handles in step. -/
theorem InStep.register (hd : d.InStep) (number : Nat) (action : AfterCommit) :
    (d.register number action).InStep := by
  have hnumbers : (d.handles.map (Handle.register number action)).map Handle.number =
      d.handles.map Handle.number := by
    rw [List.map_map]
    exact List.map_congr_left fun h _ => Handle.number_register number action h
  have hended : ∀ g ∈ d.committed ++ d.takenBack,
      ∃ h ∈ d.handles.map (Handle.register number action), h.number = g.number ∧ h.active = false := by
    intro g hg
    obtain ⟨h, hh, hnumber, hoff⟩ := hd.ended g hg
    exact ⟨_, List.mem_map_of_mem hh, by simpa using hnumber, by simpa using hoff⟩
  -- Whether the handle is the active one decides if the record of the store changes with it.
  cases hopen : d.store.isOpen number with
  | false =>
    rw [Desk.register, Work.runOn_afterCommit_of_closed action hopen]
    exact {
      active_eq := List.forall_mem_map.2 fun h hh => by simpa using hd.active_eq h hh
      recorded := fun t ht => by
        have hnumber : t.number ≠ number :=
          of_decide_eq_false (Store.isOpen_of_some ht number ▸ hopen)
        have hsame : t.handle.register number action = t.handle := if_neg hnumber
        exact hsame ▸ List.mem_map_of_mem (hd.recorded t ht)
      nodup := hnumbers ▸ hd.nodup
      number_le := List.forall_mem_map.2 fun h hh => by simpa using hd.number_le h hh
      nodup_ended := hd.nodup_ended
      ended := hended }
  | true =>
    obtain ⟨t, ht, rfl⟩ := Store.exists_of_isOpen hopen
    rw [Desk.register, Work.runOn_afterCommit_of_some ht]
    exact {
      active_eq := List.forall_mem_map.2 fun h hh => by
        rw [Handle.active_register, Handle.number_register, hd.active_eq h hh, Store.isOpen_of_some ht]
        rfl
      recorded := fun u hu => by
        obtain rfl := Option.some.inj hu
        have hsame : t.handle.register t.number action =
            Transaction.handle { t with afterCommit := t.afterCommit ++ [action] } := if_pos rfl
        exact hsame ▸ List.mem_map_of_mem (hd.recorded t ht)
      nodup := hnumbers ▸ hd.nodup
      number_le := List.forall_mem_map.2 fun h hh => by simpa using hd.number_le h hh
      nodup_ended := hd.nodup_ended
      ended := hended }

/-- Committing a handle keeps the handles in step. -/
theorem InStep.commit (hd : d.InStep) (number : Nat) : (d.commit number).InStep := by
  cases hopen : d.store.isOpen number with
  | false => rwa [hd.commit_of_closed hopen]
  | true =>
    obtain ⟨t, ht, rfl⟩ := Store.exists_of_isOpen hopen
    cases hfails : d.store.commitsFail with
    | false =>
      rw [hd.commit_of_open ht hfails, Store.finished_of_some ht]
      refine hd.finish ht (by rfl) (by rfl) ?_
      rw [List.append_assoc]
      exact List.perm_middle
    | true =>
      rw [hd.commit_of_failing ht hfails, Store.rolledBack_of_some ht]
      refine hd.finish ht (by rfl) (by rfl) ?_
      rw [← List.append_assoc]
      exact List.perm_append_singleton _ _

/-- Rolling a handle back keeps the handles in step. -/
theorem InStep.rollback (hd : d.InStep) (number : Nat) : (d.rollback number).InStep := by
  cases hopen : d.store.isOpen number with
  | false => rwa [hd.rollback_of_closed hopen]
  | true =>
    obtain ⟨t, ht, rfl⟩ := Store.exists_of_isOpen hopen
    rw [hd.rollback_of_open ht, Store.rolledBack_of_some ht]
    refine hd.finish ht (by rfl) (by rfl) ?_
    rw [← List.append_assoc]
    exact List.perm_append_singleton _ _

/-- Every act keeps the handles in step. -/
theorem InStep.act (hd : d.InStep) (a : Act) : (d.act a).InStep := by
  cases a with
  | begin => exact hd.begin
  | register number action => exact hd.register number action
  | commit number => exact hd.commit number
  | rollback number => exact hd.rollback number
  | other change =>
    exact {
      active_eq := hd.active_eq
      recorded := hd.recorded
      nodup := hd.nodup
      number_le := hd.number_le
      nodup_ended := hd.nodup_ended
      ended := hd.ended }

/-- Whole runs keep the handles in step. -/
theorem InStep.run (hd : d.InStep) (acts : List Act) : (d.run acts).InStep := by
  induction acts generalizing d with
  | nil => exact hd
  | cons a rest ih => exact ih (hd.act a)

/-- Without an open transaction, and without handles, everything is in step. -/
theorem inStep_ofStore {s : Store} (hs : s.transaction = none) : (ofStore s).InStep where
  active_eq := by simp [ofStore]
  recorded := by simp [ofStore, hs]
  nodup := List.nodup_nil
  number_le := by simp [ofStore]
  nodup_ended := List.nodup_nil
  ended := by simp [ofStore]

/-! ## What runs do -/

/-- The active handles are the one that the store records, if it records any. -/
theorem InStep.filter_active (hd : d.InStep) :
    d.handles.filter Handle.active = d.store.transaction.toList.map Transaction.handle := by
  cases ht : d.store.transaction with
  | none =>
    refine List.filter_eq_nil_iff.2 fun h hh => ?_
    rw [hd.active_eq h hh, Store.isOpen_of_none ht]
    exact Bool.false_ne_true
  | some t =>
    have hlive : d.handles.filter Handle.active = d.live t.number := by
      refine List.filter_congr fun h hh => ?_
      rw [hd.active_eq h hh, Store.isOpen_of_some ht, Bool.eq_iff_iff]
      simp [eq_comm]
    rw [hlive, hd.live_of_some ht]
    rfl

/-- An act performs what was registered with a handle if it is the commit that uses this handle up,
and otherwise nothing; it forgets none of the handles that were taken back. -/
theorem InStep.act_cases (hd : d.InStep) (a : Act) :
    (∃ t, d.store.transaction = some t ∧ a = .commit t.number ∧
        (d.act a).committed = d.committed ++ [t.handle] ∧ (d.act a).takenBack = d.takenBack ∧
        (d.act a).store =
          t.afterCommit.foldl Store.perform { d.store with transaction := none, savepoints := [] }) ∨
      (d.act a).committed = d.committed ∧ d.takenBack ⊆ (d.act a).takenBack ∧
        (d.act a).store.queue = d.store.queue ∧ (d.act a).store.log = d.store.log := by
  cases a with
  | begin =>
    refine Or.inr ?_
    rw [Desk.act]
    by_cases hidle : d.store.Idle
    · rw [begin_of_idle hidle]
      exact ⟨rfl, List.Subset.refl _, rfl, rfl⟩
    · rw [begin_of_not_idle hidle]
      exact ⟨rfl, List.Subset.refl _, rfl, rfl⟩
  | register number action =>
    refine Or.inr ⟨rfl, List.Subset.refl _, ?_⟩
    rw [Desk.act, Desk.register]
    cases hopen : d.store.isOpen number with
    | false =>
      rw [Work.runOn_afterCommit_of_closed action hopen]
      exact ⟨rfl, rfl⟩
    | true =>
      obtain ⟨t, ht, rfl⟩ := Store.exists_of_isOpen hopen
      rw [Work.runOn_afterCommit_of_some ht]
      exact ⟨rfl, rfl⟩
  | commit number =>
    cases hopen : d.store.isOpen number with
    | false =>
      rw [Desk.act, hd.commit_of_closed hopen]
      exact Or.inr ⟨rfl, List.Subset.refl _, rfl, rfl⟩
    | true =>
      obtain ⟨t, ht, rfl⟩ := Store.exists_of_isOpen hopen
      cases hfails : d.store.commitsFail with
      | false =>
        rw [Desk.act, hd.commit_of_open ht hfails, Store.finished, ht]
        exact Or.inl ⟨t, rfl, rfl, rfl, rfl, rfl⟩
      | true =>
        rw [Desk.act, hd.commit_of_failing ht hfails, Store.rolledBack_of_some ht]
        exact Or.inr ⟨rfl, List.subset_append_left _ _, rfl, rfl⟩
  | rollback number =>
    refine Or.inr ?_
    cases hopen : d.store.isOpen number with
    | false =>
      rw [Desk.act, hd.rollback_of_closed hopen]
      exact ⟨rfl, List.Subset.refl _, rfl, rfl⟩
    | true =>
      obtain ⟨t, ht, rfl⟩ := Store.exists_of_isOpen hopen
      rw [Desk.act, hd.rollback_of_open ht, Store.rolledBack_of_some ht]
      exact ⟨rfl, List.subset_append_left _ _, rfl, rfl⟩
  | other change => exact Or.inr ⟨rfl, List.Subset.refl _, rfl, rfl⟩

/-- What was put off fills the queue and the log when, and only when, handles are committed. -/
structure Performs (s : Store) (d : Desk) : Prop where
  queue : d.store.queue = s.queue ++ d.performed.filterMap AfterCommit.job?
  log : d.store.log = s.log ++ d.performed.filterMap AfterCommit.label?

/-- Every act fills the queue and the log by what it commits. -/
theorem Performs.act {s : Store} (hp : d.Performs s) (hd : d.InStep) (a : Act) :
    (d.act a).Performs s := by
  rcases hd.act_cases a with ⟨t, -, -, hcommitted, -, hstore⟩ | ⟨hcommitted, -, hqueue, hlog⟩
  · have hperformed : (d.act a).performed = d.performed ++ t.afterCommit := by
      rw [performed, hcommitted, List.flatMap_append, List.flatMap_singleton]
      rfl
    rw [Store.foldl_perform] at hstore
    refine ⟨?_, ?_⟩
    · rw [hstore, hperformed, List.filterMap_append, ← List.append_assoc, ← hp.queue]
    · rw [hstore, hperformed, List.filterMap_append, ← List.append_assoc, ← hp.log]
  · have hperformed : (d.act a).performed = d.performed := by rw [performed, hcommitted, performed]
    exact ⟨by rw [hqueue, hperformed, hp.queue], by rw [hlog, hperformed, hp.log]⟩

/-- Whole runs fill the queue and the log by what they commit. -/
theorem Performs.run {s : Store} (hp : d.Performs s) (hd : d.InStep) (acts : List Act) :
    (d.run acts).Performs s := by
  induction acts generalizing d with
  | nil => exact hp
  | cons a rest ih => exact ih (hp.act hd a) (hd.act a)

/-- What was taken back stays so. -/
theorem InStep.takenBack_subset (hd : d.InStep) (acts : List Act) :
    d.takenBack ⊆ (d.run acts).takenBack := by
  induction acts generalizing d with
  | nil => exact List.Subset.refl _
  | cons a rest ih =>
    refine List.Subset.trans ?_ (ih (hd.act a))
    rcases hd.act_cases a with ⟨t, -, -, -, htakenBack, -⟩ | ⟨-, hsubset, -⟩
    · rw [htakenBack]
      exact List.Subset.refl _
    · exact hsubset

/-- A handle keeps what was registered with it, and what is registered later comes after that. -/
theorem exists_mem_handles_run (acts : List Act) {h : Handle} (hh : h ∈ d.handles) :
    ∃ g ∈ (d.run acts).handles, g.number = h.number ∧
      g.callbacks = h.callbacks ++ acts.filterMap (Act.registered? h.number) := by
  induction acts generalizing d h with
  | nil => exact ⟨h, hh, rfl, (List.append_nil _).symm⟩
  | cons a rest ih =>
    have hstep : ∃ g ∈ (d.act a).handles, g.number = h.number ∧
        g.callbacks = h.callbacks ++ (a.registered? h.number).toList := by
      have hfinish (number : Nat) : ∃ g ∈ d.handles.map (Handle.finish number),
          g.number = h.number ∧ g.callbacks = h.callbacks ++ [] :=
        ⟨_, List.mem_map_of_mem hh, Handle.number_finish _ _, by simp⟩
      cases a with
      | begin =>
        rw [act, begin]
        split
        · exact ⟨h, List.mem_append_left _ hh, rfl, (List.append_nil _).symm⟩
        · exact ⟨h, hh, rfl, (List.append_nil _).symm⟩
      | register number action =>
        refine ⟨_, List.mem_map_of_mem hh, Handle.number_register _ _ _, ?_⟩
        rw [Handle.register, Act.registered?]
        by_cases hnumber : h.number = number
        · rw [if_pos hnumber, if_pos hnumber.symm]
          rfl
        · rw [if_neg hnumber, if_neg (Ne.symm hnumber)]
          exact (List.append_nil _).symm
      | commit number =>
        rw [act, commit]
        split <;> exact hfinish number
      | rollback number => exact hfinish number
      | other change => exact ⟨h, hh, rfl, (List.append_nil _).symm⟩
    obtain ⟨g, hg, hnumber, hcallbacks⟩ := hstep
    obtain ⟨k, hk, hknumber, hkcallbacks⟩ := ih hg
    refine ⟨k, hk, hknumber.trans hnumber, ?_⟩
    rw [hkcallbacks, hcallbacks, hnumber, List.filterMap_cons, List.append_assoc]
    cases a.registered? h.number <;> rfl

/-- What holds of a desk after any run on a store without an open transaction: the handles that are
not active are used up. -/
structure UsedUp (s : Store) (d : Desk) : Prop where
  /-- At most one handle is active, and it is the one that the store records. -/
  active : d.handles.filter Handle.active = d.store.transaction.toList.map Transaction.handle
  numbers : (d.handles.map Handle.number).Nodup
  /-- A handle has what was registered with it, in order. -/
  registered : ∀ h ∈ d.handles, ∀ acts, ∃ g ∈ (d.run acts).handles, g.number = h.number ∧
    g.callbacks = h.callbacks ++ acts.filterMap (Act.registered? h.number)
  /-- Something is performed right after the commit that the active handle succeeds in only: all
  that was registered with this handle, in order. -/
  performs : ∀ a,
    (∃ t, d.store.transaction = some t ∧ a = .commit t.number ∧
        (d.act a).committed = d.committed ++ [t.handle] ∧ (d.act a).takenBack = d.takenBack ∧
        (d.act a).store =
          t.afterCommit.foldl Store.perform { d.store with transaction := none, savepoints := [] }) ∨
      (d.act a).committed = d.committed ∧ d.takenBack ⊆ (d.act a).takenBack ∧
        (d.act a).store.queue = d.store.queue ∧ (d.act a).store.log = d.store.log
  /-- The handles that were committed are all that performed anything. -/
  performed : d.Performs s
  /-- No handle is committed twice, or both committed and taken back. -/
  once : ((d.committed ++ d.takenBack).map Handle.number).Nodup
  /-- A handle that was rolled back or whose commit failed never performs anything. -/
  never : ∀ h ∈ d.takenBack, ∀ acts, ∀ g ∈ (d.run acts).committed, g.number ≠ h.number
  /-- Committing or rolling back a handle that is not active changes nothing of the store. -/
  stale : ∀ h ∈ d.handles, h.active = false →
    (Work.commit h.number).runOn d.store = (.error .transactionInactive, d.store) ∧
      (Work.rollback h.number).runOn d.store = (.ok (), d.store)

/-- Handles are used up: at most one is active, which is the one that the store records; each
performs what was registered with it at most once, right after its own successful commit; and one
that was committed or taken back has no effect any more. -/
theorem usedUp_run {s : Store} (hs : s.transaction = none) (acts : List Act) :
    ((ofStore s).run acts).UsedUp s := by
  have hd : ((ofStore s).run acts).InStep := (inStep_ofStore hs).run acts
  have hstart : (ofStore s).Performs s := ⟨(List.append_nil _).symm, (List.append_nil _).symm⟩
  generalize hrun : (ofStore s).run acts = d at hd
  exact {
    active := hd.filter_active
    numbers := hd.nodup
    registered := fun h hh more => exists_mem_handles_run more hh
    performs := hd.act_cases
    performed := hrun ▸ hstart.run (inStep_ofStore hs) acts
    once := hd.nodup_ended
    never := fun h hh more g hg hnumber => by
      have hended := (hd.run more).nodup_ended
      rw [List.map_append, List.nodup_append] at hended
      exact hended.2.2 _ (List.mem_map_of_mem hg) _
        (List.mem_map_of_mem (hd.takenBack_subset more hh)) hnumber
    stale := fun h hh hoff => by
      have hclosed : d.store.isOpen h.number = false := (hd.active_eq h hh).symm.trans hoff
      exact ⟨Work.runOn_commit_of_closed hclosed, Work.runOn_rollback_of_closed hclosed⟩ }

/-- Two handles of which the first is rolled back and then used again beside the second. -/
def twoHandles : List Act :=
  [.begin, .register 1 (.log "first"), .begin, .rollback 1, .begin, .register 2 (.log "second"),
    .commit 1, .rollback 1, .commit 2, .commit 2]

/-- With two handles, the second one alone performs something, and does so once. -/
theorem usedUp_run_twoHandles :
    let s : Store := .ofContents .empty ⟨0, 0⟩ .standard
    s.transaction = none ∧ ((ofStore s).run twoHandles).UsedUp s ∧
      ((ofStore s).run twoHandles).handles.map Handle.active = [false, false] ∧
      ((ofStore s).run twoHandles).store.log = ["second"] :=
  ⟨rfl, usedUp_run rfl twoHandles, rfl, rfl⟩

end Desk

end Imageboard
