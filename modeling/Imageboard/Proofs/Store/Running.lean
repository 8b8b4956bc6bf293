import Imageboard.Store.Basic

/-!
# Running work on a store

What each step of work does to the store that it is run on, and how a sequence of steps ends: the
first failure ends it, and the store is left as it was then. The main statements turn a success
of a sequence into the successes of its steps. Of others a statement sees no more than whether they
hold the store, so amid them it does what it does without them or is refused.
-/

namespace Imageboard.Work

variable {α β : Type} {others : Others}

/-- A plain result leaves the store alone. -/
@[simp] theorem runOn_pure (a : α) (s : Store) :
    (pure a : Work α).runOn s others = (.ok a, s) := rfl

/-- A plain result that succeeds is this result, and leaves the store alone. -/
theorem runOn_pure_eq_ok {a b : α} {s t : Store} :
    (pure a : Work α).runOn s others = (.ok b, t) ↔ a = b ∧ s = t := by
  rw [runOn_pure, Prod.mk.injEq, Except.ok.injEq]

/-- Looking at the store leaves it alone. -/
@[simp] theorem runOn_get (s : Store) : (get : Work Store).runOn s others = (.ok s, s) := rfl

/-- A change of the whole store always succeeds. -/
@[simp] theorem runOn_modify (f : Store → Store) (s : Store) :
    (modify f : Work PUnit).runOn s others = (.ok ⟨⟩, f s) := rfl

/-- A plain computation leaves the store alone. -/
@[simp] theorem runOn_lift (r : Except Failure α) (s : Store) :
    (lift r).runOn s others = (r, s) := rfl

/-- Work that is given by what it does to a store does that. -/
@[simp] theorem runOn_ofRun (f : Store → Others → Except Failure α × Store) (s : Store) :
    (ofRun f).runOn s others = f s others := rfl

/-- The rest of a sequence runs on the store that the first step leaves, unless that fails. -/
theorem runOn_bind (x : Work α) (f : α → Work β) (s : Store) :
    (x >>= f).runOn s others =
      match x.runOn s others with
      | (.ok a, t) => (f a).runOn t others
      | (.error e, t) => (.error e, t) := by
  change (ExceptT.bindCont (fun a => ReaderT.run (f a) others) (x.runOn s others).1).run
    (x.runOn s others).2 = _
  rcases x.runOn s others with ⟨_ | _, t⟩ <;> rfl

/-- After a first step that succeeds, a sequence does what its rest does. -/
theorem runOn_bind_of_ok {x : Work α} {f : α → Work β} {s t : Store} {a : α}
    (hx : x.runOn s others = (.ok a, t)) :
    (x >>= f).runOn s others = (f a).runOn t others := by
  rw [runOn_bind, hx]

/-- Work whose result is known leaves some store. -/
theorem exists_runOn_eq_ok {w : Work α} {s : Store} {a : α} (h : (w.runOn s).1 = .ok a) :
    ∃ t, w.runOn s = (.ok a, t) :=
  ⟨(w.runOn s).2, Prod.ext h rfl⟩

/-- After a first step whose result is known, a sequence does what its rest does. -/
theorem runOn_bind_of_fst {x : Work α} {f : α → Work β} {s : Store} {a : α}
    (hx : (x.runOn s).1 = .ok a) : (x >>= f).runOn s = (f a).runOn (x.runOn s).2 :=
  runOn_bind_of_ok (Prod.ext hx rfl)

/-- After a first step that fails, a sequence has failed. -/
theorem runOn_bind_of_error {x : Work α} {f : α → Work β} {s t : Store} {e : Failure}
    (hx : x.runOn s others = (.error e, t)) : (x >>= f).runOn s others = (.error e, t) := by
  rw [runOn_bind, hx]

/-- A plain result at the end of a sequence leaves the store alone. -/
theorem snd_runOn_bind_pure (x : Work α) (f : α → β) (s : Store) :
    ((x >>= fun a => pure (f a)).runOn s others).2 = (x.runOn s others).2 := by
  rw [runOn_bind]
  rcases x.runOn s others with ⟨_ | _, t⟩ <;> rfl

/-- Returning the result of some work once more changes nothing. -/
theorem runOn_bind_pure_id (x : Work α) (s : Store) :
    (x >>= fun a => pure a).runOn s others = x.runOn s others := by
  rw [runOn_bind]
  rcases x.runOn s others with ⟨_ | _, t⟩ <;> rfl

/-- A sequence succeeds exactly if its first step and then its rest do. -/
theorem runOn_bind_eq_ok {x : Work α} {f : α → Work β} {s t : Store} {b : β} :
    (x >>= f).runOn s others = (.ok b, t) ↔
      ∃ a m, x.runOn s others = (.ok a, m) ∧ (f a).runOn m others = (.ok b, t) := by
  rw [runOn_bind]
  rcases x.runOn s others with ⟨_ | a, m⟩
  · simp
  · constructor
    · exact fun h => ⟨a, m, rfl, h⟩
    · rintro ⟨a', m', heq, h⟩
      obtain ⟨ha, rfl⟩ := Prod.mk.inj heq
      cases ha
      exact h

/-- A sequence fails exactly if its first step does, or its rest after that. -/
theorem runOn_bind_eq_error {x : Work α} {f : α → Work β} {s t : Store} {e : Failure} :
    (x >>= f).runOn s others = (.error e, t) ↔
      x.runOn s others = (.error e, t) ∨
        ∃ a m, x.runOn s others = (.ok a, m) ∧ (f a).runOn m others = (.error e, t) := by
  rw [runOn_bind]
  rcases x.runOn s others with ⟨_ | a, m⟩
  · simp
  · constructor
    · exact fun h => Or.inr ⟨a, m, rfl, h⟩
    · rintro (h | ⟨a', m', heq, h⟩)
      · cases congrArg Prod.fst h
      · obtain ⟨ha, rfl⟩ := Prod.mk.inj heq
        cases ha
        exact h

/-- Saying otherwise why work failed changes nothing else. -/
theorem runOn_adapt (f : Failure → Failure) (x : Work α) (s : Store) :
    (adapt f x).runOn s others =
      ((x.runOn s others).1.mapError f, (x.runOn s others).2) := rfl

/-! ## Statements -/

/-- Work on tables that all exist goes on, and otherwise fails. -/
theorem runOn_requireTables (ts : List Table) (s : Store) :
    (∀ t ∈ ts, s.contents.has t) ∧ (requireTables ts).runOn s others = (.ok (), s) ∨
      (¬ ∀ t ∈ ts, s.contents.has t) ∧ ∃ e, (requireTables ts).runOn s others = (.error e, s) := by
  rw [requireTables, runOn_bind, runOn_get]
  dsimp only
  cases hfind : ts.find? fun t => !s.contents.has t with
  | none => exact Or.inl ⟨by simpa using hfind, rfl⟩
  | some m =>
    have hmem := List.mem_of_find?_eq_some hfind
    have hmissing := List.find?_some hfind
    exact Or.inr ⟨fun h => by simp [h m hmem] at hmissing, _, rfl⟩

/-- References into tables that all exist can be checked, and otherwise the work fails. -/
theorem runOn_requireParents (t : Table) (s : Store) :
    (∀ p ∈ t.parents, s.contents.has p) ∧ (requireParents t).runOn s others = (.ok (), s) ∨
      (¬ ∀ p ∈ t.parents, s.contents.has p) ∧
        ∃ e, (requireParents t).runOn s others = (.error e, s) := by
  rw [requireParents, runOn_bind, runOn_get]
  dsimp only
  cases hfind : t.parents.find? fun p => !s.contents.has p with
  | none => exact Or.inl ⟨by simpa using hfind, rfl⟩
  | some m =>
    have hmem := List.mem_of_find?_eq_some hfind
    have hmissing := List.find?_some hfind
    exact Or.inr ⟨fun h => by simp [h m hmem] at hmissing, _, rfl⟩

/-- What a store must have for a statement that reads some tables and takes some values. -/
structure Readable (ts : List Table) (vs : List Value) (s : Store) : Prop where
  tables : ∀ t ∈ ts, s.contents.has t
  values : vs.all Value.fits

/-- What a store must have for a statement that also changes a table. -/
structure Writable (ts : List Table) (vs : List Value) (s : Store) : Prop
    extends Readable ts vs s where
  free : s.heldElsewhere = false

/-- What a reading gives depends on the tables that are there, the values, and what is seen. -/
theorem runOn_read (ts : List Table) (vs : List Value) (f : Contents → α) (s : Store) :
    (read ts vs f).runOn s others =
      (match ts.find? fun t => !s.contents.has t with
        | some t => .error (.store (.noTable t.name))
        | none => if vs.all Value.fits then .ok (f s.contents) else .error .overflow, s) := by
  rw [read, runOn_bind, requireTables, runOn_bind, runOn_get]
  dsimp only
  cases ts.find? fun t => !s.contents.has t with
  | some t => rfl
  | none =>
    dsimp only [runOn_pure]
    rw [requireFits]
    split <;> rfl

/-- Some tables are read if they exist and the values can be taken. -/
theorem runOn_read_of_readable {ts : List Table} {vs : List Value} {s : Store}
    (h : Readable ts vs s) (f : Contents → α) :
    (read ts vs f).runOn s others = (.ok (f s.contents), s) := by
  rcases runOn_requireTables ts s with ⟨-, hok⟩ | ⟨hnot, -⟩
  · rw [read, runOn_bind_of_ok hok, requireFits, if_pos h.values]
    rfl
  · exact absurd h.tables hnot

/-- A reading that is refused leaves the store alone. -/
theorem runOn_read_of_not_readable {ts : List Table} {vs : List Value} {s : Store}
    (h : ¬ Readable ts vs s) (f : Contents → α) :
    ∃ e, (read ts vs f).runOn s others = (.error e, s) := by
  rcases runOn_requireTables ts s with ⟨htables, hok⟩ | ⟨-, e, he⟩
  · have hvalues : ¬ vs.all Value.fits := fun hvalues => h ⟨htables, hvalues⟩
    rw [read, runOn_bind_of_ok hok, requireFits, if_neg hvalues]
    exact ⟨_, rfl⟩
  · exact ⟨e, runOn_bind_of_error he⟩

/-- Where nobody else does anything a change is refused if somebody else holds the store. -/
theorem isRefused_absent (s : Store) : s.isRefused .absent = s.heldElsewhere :=
  Bool.or_false _

/-- Finding out what others do leaves the store alone. -/
theorem runOn_readThe (s : Store) : (readThe Others : Work Others).runOn s others = (.ok others, s) :=
  rfl

/-- A store is not changed while a change of it is refused. -/
theorem runOn_change_of_refused {s : Store} (hrefused : s.isRefused others = true)
    (f : Contents → Except StoreFault (α × Contents)) :
    (change f).runOn s others = (.error (.store .locked), s) := by
  have hlocked : requireWritable.runOn s others = (.error (.store .locked), s) := by
    rw [requireWritable, runOn_bind_of_ok (runOn_get s), runOn_bind_of_ok (runOn_readThe s),
      if_pos hrefused]
    rfl
  exact runOn_bind_of_error hlocked

/-- A store is changed while no change of it is refused, unless the contents refuse it. -/
theorem runOn_change_of_allowed {s : Store} (hallowed : s.isRefused others = false)
    (f : Contents → Except StoreFault (α × Contents)) :
    (change f).runOn s others =
      match f s.contents with
      | .ok (a, c) => (.ok a, { s with contents := c })
      | .error e => (.error (.store e), s) := by
  have hwritable : requireWritable.runOn s others = (.ok (), s) := by
    rw [requireWritable, runOn_bind_of_ok (runOn_get s), runOn_bind_of_ok (runOn_readThe s),
      hallowed]
    rfl
  rw [change, runOn_bind_of_ok hwritable, runOn_bind_of_ok (runOn_get s)]
  rcases f s.contents with e | ⟨a, c⟩ <;> rfl

/-- A store that somebody else holds is not changed. -/
theorem runOn_change_of_held {s : Store} (hheld : s.heldElsewhere = true)
    (f : Contents → Except StoreFault (α × Contents)) :
    (change f).runOn s = (.error (.store .locked), s) :=
  runOn_change_of_refused ((isRefused_absent s).trans hheld) f

/-- A store that nobody else holds is changed unless the contents refuse it. -/
theorem runOn_change_of_free {s : Store} (hfree : s.heldElsewhere = false)
    (f : Contents → Except StoreFault (α × Contents)) :
    (change f).runOn s =
      match f s.contents with
      | .ok (a, c) => (.ok a, { s with contents := c })
      | .error e => (.error (.store e), s) :=
  runOn_change_of_allowed ((isRefused_absent s).trans hfree) f

/-- A statement whose tables and values are in order is its change. -/
theorem runOn_write_of_readable {ts : List Table} {vs : List Value} {s : Store}
    (h : Readable ts vs s) (f : Contents → Except StoreFault (α × Contents)) :
    (write ts vs f).runOn s others = (change f).runOn s others := by
  rcases runOn_requireTables ts s with ⟨-, hok⟩ | ⟨hnot, -⟩
  · rw [write, runOn_bind_of_ok hok, requireFits, if_pos h.values,
      runOn_bind_of_ok (runOn_pure _ _)]
  · exact absurd h.tables hnot

/-- A statement that can be run changes the contents, unless these refuse the change. -/
theorem runOn_write_of_writable {ts : List Table} {vs : List Value} {s : Store}
    (h : Writable ts vs s) (f : Contents → Except StoreFault (α × Contents)) :
    (write ts vs f).runOn s =
      match f s.contents with
      | .ok (a, c) => (.ok a, { s with contents := c })
      | .error e => (.error (.store e), s) := by
  rw [runOn_write_of_readable h.toReadable, runOn_change_of_free h.free]

/-- A statement that cannot be run or is refused leaves the store alone. -/
theorem runOn_write_of_not_allowed {ts : List Table} {vs : List Value} {s : Store}
    (h : ¬ (Readable ts vs s ∧ s.isRefused others = false))
    (f : Contents → Except StoreFault (α × Contents)) :
    ∃ e, (write ts vs f).runOn s others = (.error e, s) := by
  rcases runOn_requireTables ts s with ⟨htables, hok⟩ | ⟨-, e, he⟩
  · rw [write, runOn_bind_of_ok hok, requireFits]
    split
    next hvalues =>
      have hrefused : s.isRefused others = true := by
        simpa using fun hallowed => h ⟨⟨htables, hvalues⟩, hallowed⟩
      rw [runOn_bind_of_ok (runOn_pure _ _), runOn_change_of_refused hrefused]
      exact ⟨_, rfl⟩
    next => exact ⟨_, rfl⟩
  · exact ⟨e, runOn_bind_of_error he⟩

/-- A statement that cannot be run leaves the store alone. -/
theorem runOn_write_of_not_writable {ts : List Table} {vs : List Value} {s : Store}
    (h : ¬ Writable ts vs s) (f : Contents → Except StoreFault (α × Contents)) :
    ∃ e, (write ts vs f).runOn s = (.error e, s) :=
  runOn_write_of_not_allowed
    (fun hallowed => h ⟨hallowed.1, (isRefused_absent s).symm.trans hallowed.2⟩) f

/-- A statement on a table with references also needs the tables that these point to. -/
theorem runOn_writeReferring (t : Table) (vs : List Value)
    (f : Contents → Except StoreFault (α × Contents)) (s : Store) :
    Writable (t :: t.parents) vs s ∧ (writeReferring t vs f).runOn s = (change f).runOn s ∨
      ∃ e, (writeReferring t vs f).runOn s = (.error e, s) := by
  rw [writeReferring]
  rcases runOn_requireTables [t] s with ⟨htable, hok⟩ | ⟨-, e, he⟩
  · rw [runOn_bind_of_ok hok]
    rcases runOn_requireParents t s with ⟨hparents, hok⟩ | ⟨-, e, he⟩
    · rw [runOn_bind_of_ok hok, requireFits]
      split
      next hvalues =>
        rw [runOn_bind_of_ok (runOn_pure _ _)]
        cases hheld : s.heldElsewhere with
        | true =>
          rw [runOn_change_of_held hheld]
          exact Or.inr ⟨_, rfl⟩
        | false =>
          have htables : ∀ u ∈ t :: t.parents, s.contents.has u :=
            List.forall_mem_cons.2 ⟨htable t List.mem_cons_self, hparents⟩
          exact Or.inl ⟨⟨⟨htables, hvalues⟩, hheld⟩, rfl⟩
      next => exact Or.inr ⟨_, rfl⟩
    · exact Or.inr ⟨e, runOn_bind_of_error he⟩
  · exact Or.inr ⟨e, runOn_bind_of_error he⟩

/-! ## Statements amid others -/

/-- Work that amid others does what it does without them, or else is refused and leaves the store alone. -/
def IsStatement (w : Work α) : Prop :=
  ∀ s others, w.runOn s others = w.runOn s ∨ ∃ e, w.runOn s others = (.error e, s)

/-- A statement stays one after a check of the store that others have no part in. -/
theorem IsStatement.checked {x : Work β} {f : β → Work α}
    (hx : ∀ s others, x.runOn s others = ((x.runOn s).1, s)) (hf : ∀ b, IsStatement (f b)) :
    IsStatement (x >>= f) := by
  intro s others
  rw [runOn_bind, runOn_bind, hx s others, hx s .absent]
  rcases (x.runOn s).1 with e | b
  · exact Or.inl rfl
  · exact hf b s others

/-- A change of the contents is a statement. -/
theorem isStatement_change (f : Contents → Except StoreFault (α × Contents)) :
    IsStatement (change f) := by
  intro s others
  cases hrefused : s.isRefused others with
  | true => exact Or.inr ⟨_, runOn_change_of_refused hrefused f⟩
  | false =>
    have hfree : s.heldElsewhere = false := (Bool.or_eq_false_iff.1 hrefused).1
    rw [runOn_change_of_allowed hrefused, runOn_change_of_free hfree]
    exact Or.inl rfl

/-- Whether tables exist has nothing to do with others. -/
theorem runOn_requireTables_amid (ts : List Table) (s : Store) (others : Others) :
    (requireTables ts).runOn s others = (((requireTables ts).runOn s).1, s) := by
  rw [requireTables, runOn_bind, runOn_bind, runOn_get, runOn_get]
  dsimp only
  cases ts.find? fun t => !s.contents.has t <;> rfl

/-- Whether references can be checked has nothing to do with others. -/
theorem runOn_requireParents_amid (t : Table) (s : Store) (others : Others) :
    (requireParents t).runOn s others = (((requireParents t).runOn s).1, s) := by
  rw [requireParents, runOn_bind, runOn_bind, runOn_get, runOn_get]
  dsimp only
  cases t.parents.find? fun p => !s.contents.has p <;> rfl

/-- Whether values can be taken has nothing to do with others. -/
theorem runOn_requireFits_amid (vs : List Value) (s : Store) (others : Others) :
    (requireFits vs).runOn s others = (((requireFits vs).runOn s).1, s) := by
  rw [requireFits]
  split <;> rfl

/-- A change that reads some tables and takes some values is a statement. -/
theorem isStatement_write (ts : List Table) (vs : List Value)
    (f : Contents → Except StoreFault (α × Contents)) : IsStatement (write ts vs f) :=
  .checked (runOn_requireTables_amid ts) fun _ =>
    .checked (runOn_requireFits_amid vs) fun _ => isStatement_change f

/-- A change of a table with references is a statement. -/
theorem isStatement_writeReferring (t : Table) (vs : List Value)
    (f : Contents → Except StoreFault (α × Contents)) : IsStatement (writeReferring t vs f) :=
  .checked (runOn_requireTables_amid [t]) fun _ => .checked (runOn_requireParents_amid t) fun _ =>
    .checked (runOn_requireFits_amid vs) fun _ => isStatement_change f

end Imageboard.Work
