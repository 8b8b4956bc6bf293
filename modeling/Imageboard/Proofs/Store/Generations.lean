import Imageboard.Proofs.Store.Leading
import Imageboard.Proofs.Store.Transactions
import Mathlib.Order.Defs.Unbundled

/-!
# Alias generations

What is remembered about aliases is told to be old by the alias generation: a store moves to a new
one with each change of an alias and with each transaction that is taken back. So work that is run as
a whole leaves a store that follows the one before it: the generation is not an earlier one, and
while it is the same, so are the aliases. Going back to a savepoint is not of this kind, because it
can bring other aliases back within the generation; it does no harm only where nobody has looked at
the aliases in between, as in a block that is run as a whole.
-/

namespace Imageboard

/-- The alias generation of the second store is not an earlier one. -/
def Store.NotBehind (s t : Store) : Prop :=
  s.aliasGeneration ≤ t.aliasGeneration

/-- The alias generation of the second store is not an earlier one, and while it is the same, so are
the aliases. -/
structure Store.Follows (s t : Store) : Prop where
  notBehind : s.NotBehind t
  aliases : t.aliasGeneration = s.aliasGeneration → t.contents.aliases = s.contents.aliases

namespace Store

instance : Std.Refl NotBehind := ⟨fun s => Nat.le_refl s.aliasGeneration⟩

instance : IsTrans Store NotBehind := ⟨fun _ _ _ => Nat.le_trans⟩

/-- A store follows itself. -/
theorem Follows.refl (s : Store) : s.Follows s :=
  ⟨Nat.le_refl _, fun _ => rfl⟩

/-- What follows a store that follows another follows that one too. -/
theorem Follows.trans {s t u : Store} (hst : s.Follows t) (htu : t.Follows u) : s.Follows u where
  notBehind := Nat.le_trans hst.notBehind htu.notBehind
  aliases h := by
    have hfirst : s.aliasGeneration ≤ t.aliasGeneration := hst.notBehind
    have hrest : t.aliasGeneration ≤ u.aliasGeneration := htu.notBehind
    have hback : t.aliasGeneration = s.aliasGeneration := by omega
    exact (htu.aliases (h.trans hback.symm)).trans (hst.aliases hback)

instance : Std.Refl Follows := ⟨Follows.refl⟩

instance : IsTrans Store Follows := ⟨fun _ _ _ => Follows.trans⟩

/-- A store in a later alias generation follows, whatever its aliases are. -/
theorem Follows.of_lt {s t : Store} (h : s.aliasGeneration < t.aliasGeneration) : s.Follows t :=
  ⟨Nat.le_of_lt h, fun heq => absurd heq (Nat.ne_of_gt h)⟩

/-- A store of the same alias generation and with the same aliases follows. -/
theorem Follows.of_eq {s t : Store} (hgeneration : t.aliasGeneration = s.aliasGeneration)
    (haliases : t.contents.aliases = s.contents.aliases) : s.Follows t :=
  ⟨Nat.le_of_eq hgeneration.symm, fun _ => haliases⟩

/-- A store follows when its transaction is taken back. -/
theorem follows_rolledBack (s : Store) : s.Follows s.rolledBack := by
  rcases htransaction : s.transaction with _ | t
  · rw [rolledBack, htransaction]
    exact .refl s
  · rw [rolledBack_of_some htransaction]
    exact .of_lt (Nat.lt_succ_self _)

/-- A store follows when its transaction is committed. -/
theorem follows_finished (s : Store) : s.Follows s.finished := by
  rcases htransaction : s.transaction with _ | t
  · rw [finished, htransaction]
    exact .refl s
  · rw [finished_of_some htransaction]
    exact .of_eq rfl rfl

/-- A store follows when a savepoint is removed. -/
theorem follows_release {s t : Store} {number : Nat} (h : s.release number = .ok t) :
    s.Follows t := by
  rw [release] at h
  split at h
  next =>
    obtain rfl := Except.ok.inj h
    exact .of_eq rfl rfl
  next => contradiction

/-- Going back to a savepoint does not move to another alias generation. -/
theorem aliasGeneration_undo {s t : Store} {number : Nat} (h : s.undo number = .ok t) :
    t.aliasGeneration = s.aliasGeneration := by
  rw [undo] at h
  split at h
  next =>
    obtain rfl := Except.ok.inj h
    rfl
  next => contradiction

end Store

namespace Work

variable {α β : Type} {R : Store → Store → Prop}

/-- Work that leaves a store in a relation to the one before it, whether it succeeds or fails. -/
def Along (R : Store → Store → Prop) (w : Work α) : Prop :=
  ∀ s, R s (w.runOn s).2

section Steps

variable [Std.Refl R]

/-- Work that leaves the store as it is goes along. -/
theorem Reads.along {w : Work α} (h : Reads w) : Along R w := by
  intro s
  rw [h]
  exact Std.Refl.refl s

/-- A plain result goes along. -/
theorem along_pure (a : α) : Along R (pure a) := (reads_pure a).along

/-- A failure goes along. -/
theorem along_throw (f : Failure) : Along R (throw f : Work α) := (reads_throw f).along

/-- What would come after a failure does not matter. -/
theorem along_throw_bind (f : Failure) (k : α → Work β) : Along R ((throw f : Work α) >>= k) :=
  Reads.along fun _ => rfl

/-- Looking at the store goes along. -/
theorem along_get : Along R (get : Work Store) := reads_get.along

/-- A plain computation goes along. -/
theorem along_lift (r : Except Failure α) : Along R (lift r) :=
  Reads.along fun _ => rfl

/-- Reading tables goes along. -/
theorem along_read (ts : List Table) (vs : List Value) (f : Contents → α) :
    Along R (read ts vs f) :=
  (reads_read ts vs f).along

end Steps

/-- A sequence goes along a transitive relation if its steps do. -/
theorem Along.bind [IsTrans Store R] {x : Work α} {f : α → Work β} (hx : Along R x)
    (hf : ∀ a, Along R (f a)) : Along R (x >>= f) := by
  intro s
  have hfirst := hx s
  rw [runOn_bind]
  rcases hrun : x.runOn s with ⟨_ | a, m⟩
  · rwa [hrun] at hfirst
  · rw [hrun] at hfirst
    exact IsTrans.trans _ _ _ hfirst (hf a m)

/-- A choice goes along if both branches do. -/
theorem Along.ite {c : Prop} [Decidable c] {x y : Work α} (hx : Along R x) (hy : Along R y) :
    Along R (if c then x else y) := by
  split
  · exact hx
  · exact hy

/-- Work that is done only under a condition goes along if it does. -/
theorem Along.guarded [Std.Refl R] {c : Prop} [Decidable c] {x : Work PUnit} (hx : Along R x) :
    Along R (if c then x else pure ⟨⟩) :=
  hx.ite (along_pure _)

/-- What is in a relation to a store stays so under work that goes along it. -/
theorem Along.of_related [IsTrans Store R] {w : Work α} (h : Along R w) {s t : Store} (ht : R s t) :
    R s (w.runOn t).2 :=
  IsTrans.trans _ _ _ ht (h t)

/-! ## Statements -/

/-- A change of the contents alone is none of the alias generation. -/
theorem aliasGeneration_change (f : Contents → Except StoreFault (α × Contents)) (s : Store) :
    ((change f).runOn s).2.aliasGeneration = s.aliasGeneration := by
  cases hheld : s.heldElsewhere with
  | true => rw [runOn_change_of_held hheld]
  | false =>
    rw [runOn_change_of_free hheld]
    rcases f s.contents with e | ⟨a, d⟩ <;> rfl

/-- A statement is not behind. -/
theorem notBehind_write (ts : List Table) (vs : List Value)
    (f : Contents → Except StoreFault (α × Contents)) : Along Store.NotBehind (write ts vs f) := by
  intro s
  by_cases h : Writable ts vs s
  · rw [runOn_write_of_writable h, ← runOn_change_of_free h.free]
    exact Nat.le_of_eq (aliasGeneration_change f s).symm
  · obtain ⟨e, he⟩ := runOn_write_of_not_writable h f
    rw [he]
    exact Std.Refl.refl s

/-- A statement on a table with references is not behind. -/
theorem notBehind_writeReferring (t : Table) (vs : List Value)
    (f : Contents → Except StoreFault (α × Contents)) :
    Along Store.NotBehind (writeReferring t vs f) := by
  intro s
  rcases runOn_writeReferring t vs f s with ⟨-, hrun⟩ | ⟨e, he⟩
  · rw [hrun]
    exact Nat.le_of_eq (aliasGeneration_change f s).symm
  · rw [he]
    exact Std.Refl.refl s

/-- A statement of any kind follows if what comes after it moves to a later alias generation. -/
theorem follows_write_bind {ts : List Table} {vs : List Value}
    {f : Contents → Except StoreFault (α × Contents)} {k : α → Work β}
    (hk : ∀ a s, s.aliasGeneration < ((k a).runOn s).2.aliasGeneration) :
    Along Store.Follows (write ts vs f >>= k) := by
  intro s
  have hstatement := notBehind_write ts vs f s
  rw [runOn_bind]
  rcases hrun : (write ts vs f).runOn s with ⟨e | a, m⟩
  · rw [runOn_write_eq_error hrun]
    exact .refl s
  · rw [hrun] at hstatement
    exact .of_lt (Nat.lt_of_le_of_lt hstatement (hk a m))

/-- Work that keeps the aliases follows if it is not behind. -/
theorem Along.follows {w : Work α} (h : Along Store.NotBehind w)
    (hkeeps : ∀ rs, Keeps (fun c => c.aliases = rs) w) : Along Store.Follows w :=
  fun s => ⟨h s, fun _ => (hkeeps _).contents s rfl⟩

/-! ## Blocks and transactions -/

/-- A block that is run as a whole is not behind if its body is not. -/
theorem Along.atomic {w : Work α} (h : Along Store.NotBehind w)
    (hw : ∀ s, (w.runOn s).2.setting = s.setting) : Along Store.NotBehind (atomic w) := by
  intro s
  have hbody := h s.setSavepoint
  rw [runOn_atomic hw]
  rcases hrun : w.runOn s.setSavepoint with ⟨e | a, t⟩ <;> rwa [hrun] at hbody

/-- A store follows when a transaction is begun. -/
theorem follows_begin : Along Store.Follows begin := by
  intro s
  by_cases hidle : s.Idle
  · rw [runOn_begin_of_idle hidle]
    exact .of_eq rfl rfl
  · obtain ⟨e, he⟩ := runOn_begin_of_not_idle hidle
    rw [he]
    exact .refl s

/-- A store follows when a transaction is taken back. -/
theorem follows_rollback (number : Nat) : Along Store.Follows (rollback number) := by
  intro s
  rw [rollback, runOn_modify]
  dsimp only
  split
  · exact s.follows_rolledBack
  · exact .refl s

/-- A store follows when a transaction is committed, also if that fails. -/
theorem follows_commit (number : Nat) : Along Store.Follows (commit number) := by
  intro s
  cases hopen : s.isOpen number with
  | false =>
    rw [runOn_commit_of_closed hopen]
    exact .refl s
  | true =>
    cases hfails : s.commitsFail with
    | true =>
      rw [runOn_commit_of_failing hopen hfails]
      exact s.follows_rolledBack
    | false =>
      rw [runOn_commit_of_open hopen hfails]
      exact s.follows_finished

/-- A store follows when something is put off until a commit. -/
theorem follows_afterCommit (number : Nat) (action : AfterCommit) :
    Along Store.Follows (afterCommit number action) := by
  intro s
  rw [afterCommit, runOn_modify]
  split
  · split
    · exact .of_eq rfl rfl
    · exact .refl s
  · exact .refl s

/-- A transaction of its own follows if its work does. -/
theorem follows_inTransaction {w : Nat → Work α} (hw : ∀ number, Along Store.Follows (w number)) :
    Along Store.Follows (inTransaction w) := by
  refine follows_begin.bind fun number s => ?_
  have hwork := hw number s
  rw [runOn_ofRun]
  rcases hrun : (w number).runOn s with ⟨e | a, t⟩
  · rw [hrun] at hwork
    dsimp only
    split
    · exact hwork.trans t.follows_rolledBack
    · exact hwork
  · rw [hrun] at hwork
    dsimp only
    split
    · exact hwork.trans (((follows_commit number).bind fun _ => along_pure a) t)
    · exact hwork

end Work

end Imageboard
