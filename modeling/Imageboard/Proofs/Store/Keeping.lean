import Imageboard.Proofs.Store.Running

/-!
# What work keeps

Most work on a store changes the contents and nothing around them: it begins and ends no
transaction, and each savepoint that it sets is gone at its end. Such work keeps a property of the
contents if each of its steps does, whatever others do between them. The main statement is that a block
that is done as a whole or not at all keeps what its body keeps.
-/

namespace Imageboard

/-- A store without its contents and without its counts of savepoints and alias generations. -/
def Store.setting (s : Store) : Store :=
  { s with contents := .empty, savepointCount := 0, aliasGeneration := 0 }

namespace Work

variable {α β : Type} {P : Contents → Prop} {others : Others}

/-- Work that changes nothing around the contents and keeps a property of the contents, whether it
succeeds or fails. -/
structure Keeps (P : Contents → Prop) (w : Work α) : Prop where
  setting : ∀ {others : Others} (s), (w.runOn s others).2.setting = s.setting
  contents : ∀ {others : Others} (s), P s.contents → P (w.runOn s others).2.contents

/-- However work ends that keeps something, nothing around the contents has changed. -/
theorem Keeps.setting_of_runOn {w : Work α} (h : Keeps P w) {s t : Store} {r : Except Failure α}
    (hrun : w.runOn s others = (r, t)) : t.setting = s.setting := by
  have hsetting : (w.runOn s others).2.setting = s.setting := h.setting s
  rwa [hrun] at hsetting

/-- However work ends that keeps something, the contents have it still. -/
theorem Keeps.contents_of_runOn {w : Work α} (h : Keeps P w) {s t : Store} {r : Except Failure α}
    (hs : P s.contents) (hrun : w.runOn s others = (r, t)) : P t.contents := by
  have hcontents : P (w.runOn s others).2.contents := h.contents s hs
  rwa [hrun] at hcontents

/-- Work that leaves the store as it is, whether it succeeds or fails. -/
def Reads (w : Work α) : Prop :=
  ∀ s {others : Others}, (w.runOn s others).2 = s

/-- After a reading the store is as it was. -/
theorem Reads.eq_of_runOn {w : Work α} (h : Reads w) {s t : Store} {r : Except Failure α}
    (hrun : w.runOn s others = (r, t)) : t = s := by
  have hsame : (w.runOn s others).2 = s := h s
  rwa [hrun] at hsame

/-- A sequence of steps that leave the store as it is does so too. -/
theorem Reads.bind {x : Work α} {f : α → Work β} (hx : Reads x) (hf : ∀ a, Reads (f a)) :
    Reads (x >>= f) := by
  intro s others
  have hfirst : (x.runOn s others).2 = s := hx s
  rw [runOn_bind]
  rcases hrun : x.runOn s others with ⟨_ | a, m⟩
  · rwa [hrun] at hfirst
  · rw [hrun] at hfirst
    exact (hf a m).trans hfirst

/-- A choice between steps that leave the store as it is does so too. -/
theorem Reads.ite {c : Prop} [Decidable c] {x y : Work α} (hx : Reads x) (hy : Reads y) :
    Reads (if c then x else y) := by
  split
  · exact hx
  · exact hy

/-- Saying otherwise why work failed leaves the store as it is if the work does. -/
theorem Reads.adapt {f : Failure → Failure} {x : Work α} (hx : Reads x) :
    Reads (adapt f x) := by
  intro s others
  rw [runOn_adapt]
  exact hx s

/-- A plain result leaves the store as it is. -/
theorem reads_pure (a : α) : Reads (pure a) := fun _ => rfl

/-- A failure leaves the store as it is. -/
theorem reads_throw (f : Failure) : Reads (throw f : Work α) := fun _ => rfl

/-- Looking at the store leaves it as it is. -/
theorem reads_get : Reads get := fun _ => rfl

/-- Reading tables leaves the store as it is. -/
theorem reads_read (ts : List Table) (vs : List Value) (f : Contents → α) :
    Reads (read ts vs f) := by
  intro s others
  by_cases h : Readable ts vs s
  · rw [runOn_read_of_readable h]
  · obtain ⟨e, he⟩ := runOn_read_of_not_readable h f
    rw [he]

/-- Looking whether tables exist leaves the store as it is. -/
theorem reads_requireTables (ts : List Table) : Reads (requireTables ts) := by
  intro s others
  rw [runOn_requireTables_amid]

/-- Looking whether the tables of references exist leaves the store as it is. -/
theorem reads_requireParents (t : Table) : Reads (requireParents t) := by
  intro s others
  rw [runOn_requireParents_amid]

/-- Looking whether values can be taken leaves the store as it is. -/
theorem reads_requireFits (vs : List Value) : Reads (requireFits vs) := by
  intro s others
  rw [runOn_requireFits_amid]

/-- Work that leaves the store as it is keeps everything. -/
theorem Reads.keeps {w : Work α} (h : Reads w) : Keeps P w where
  setting s := by rw [h]
  contents s hs := by rwa [h]

/-- A plain result keeps everything. -/
theorem keeps_pure (a : α) : Keeps P (pure a) := (reads_pure a).keeps

/-- A failure keeps everything. -/
theorem keeps_throw (f : Failure) : Keeps P (throw f : Work α) := (reads_throw f).keeps

/-- What would come after a failure does not matter. -/
theorem keeps_throw_bind (f : Failure) (k : α → Work β) : Keeps P ((throw f : Work α) >>= k) :=
  Reads.keeps fun _ => rfl

/-- Looking at the store keeps everything. -/
theorem keeps_get : Keeps P (get : Work Store) := reads_get.keeps

/-- A plain computation keeps everything. -/
theorem keeps_lift (r : Except Failure α) : Keeps P (lift r) :=
  Reads.keeps fun _ => rfl

/-- A sequence keeps what its steps keep. -/
theorem Keeps.bind {x : Work α} {f : α → Work β} (hx : Keeps P x) (hf : ∀ a, Keeps P (f a)) :
    Keeps P (x >>= f) where
  setting {others} s := by
    rw [runOn_bind]
    rcases hrun : x.runOn s others with ⟨_ | a, m⟩
    · exact hx.setting_of_runOn hrun
    · exact ((hf a).setting m).trans (hx.setting_of_runOn hrun)
  contents {others} s hs := by
    rw [runOn_bind]
    rcases hrun : x.runOn s others with ⟨_ | a, m⟩
    · exact hx.contents_of_runOn hs hrun
    · exact (hf a).contents m (hx.contents_of_runOn hs hrun)

/-- A choice keeps what both branches keep. -/
theorem Keeps.ite {c : Prop} [Decidable c] {x y : Work α} (hx : Keeps P x) (hy : Keeps P y) :
    Keeps P (if c then x else y) := by
  split
  · exact hx
  · exact hy

/-- Work that is done only under a condition keeps what it keeps. -/
theorem Keeps.guarded {c : Prop} [Decidable c] {x : Work PUnit} (hx : Keeps P x) :
    Keeps P (if c then x else pure ⟨⟩) :=
  hx.ite (keeps_pure _)

/-- Reading tables keeps everything. -/
theorem keeps_read (ts : List Table) (vs : List Value) (f : Contents → α) :
    Keeps P (read ts vs f) :=
  (reads_read ts vs f).keeps

/-- A statement keeps what it keeps without others. -/
theorem IsStatement.keeps {w : Work α} (hw : IsStatement w)
    (hsetting : ∀ s, (w.runOn s).2.setting = s.setting)
    (hcontents : ∀ s, P s.contents → P (w.runOn s).2.contents) : Keeps P w where
  setting {others} s := by
    rcases hw s others with halone | ⟨e, he⟩
    · rw [halone]
      exact hsetting s
    · rw [he]
  contents {others} s hs := by
    rcases hw s others with halone | ⟨e, he⟩
    · rw [halone]
      exact hcontents s hs
    · rwa [he]

/-- A change keeps what the contents keep under it. -/
theorem keeps_change {f : Contents → Except StoreFault (α × Contents)}
    (h : ∀ c a d, P c → f c = .ok (a, d) → P d) : Keeps P (change f) := by
  refine (isStatement_change f).keeps (fun s => ?_) fun s hs => ?_
  · cases hheld : s.heldElsewhere with
    | true => rw [runOn_change_of_held hheld]
    | false =>
      rw [runOn_change_of_free hheld]
      rcases f s.contents with e | ⟨a, d⟩ <;> rfl
  · cases hheld : s.heldElsewhere with
    | true => rwa [runOn_change_of_held hheld]
    | false =>
      rw [runOn_change_of_free hheld]
      rcases hf : f s.contents with e | ⟨a, d⟩
      · exact hs
      · exact h s.contents a d hs hf

/-- A statement keeps what the contents keep under its change. -/
theorem keeps_write {ts : List Table} {vs : List Value}
    {f : Contents → Except StoreFault (α × Contents)}
    (h : ∀ c a d, P c → f c = .ok (a, d) → P d) : Keeps P (write ts vs f) :=
  (reads_requireTables ts).keeps.bind fun _ => (reads_requireFits vs).keeps.bind fun _ =>
    keeps_change h

/-- A statement on a table with references keeps what the contents keep under its change. -/
theorem keeps_writeReferring {t : Table} {vs : List Value}
    {f : Contents → Except StoreFault (α × Contents)}
    (h : ∀ c a d, P c → f c = .ok (a, d) → P d) : Keeps P (writeReferring t vs f) :=
  (reads_requireTables [t]).keeps.bind fun _ => (reads_requireParents t).keeps.bind fun _ =>
    (reads_requireFits vs).keeps.bind fun _ => keeps_change h

/-! ## Blocks -/

/-- Going back to the latest savepoint restores its contents. -/
theorem undo_head {t : Store} {n : Nat} {c : Contents} {rest : List Savepoint}
    (h : t.savepoints = ⟨n, c⟩ :: rest) :
    t.undo n = .ok { t with contents := c, savepoints := rest } := by
  simp [Store.undo, h, Store.savepointsFrom]

/-- Removing the latest savepoint keeps the contents. -/
theorem release_head {t : Store} {n : Nat} {c : Contents} {rest : List Savepoint}
    (h : t.savepoints = ⟨n, c⟩ :: rest) : t.release n = .ok { t with savepoints := rest } := by
  simp [Store.release, h, Store.savepointsFrom]

/-- A block keeps the changes of a body that succeeds and takes those of one that fails back. -/
theorem runOn_atomic {w : Work α} (hw : ∀ s, (w.runOn s others).2.setting = s.setting) (s : Store) :
    (atomic w).runOn s others =
      match w.runOn s.setSavepoint others with
      | (.ok a, t) => (.ok a, { t with savepoints := s.savepoints })
      | (.error e, t) => (.error e, { t with contents := s.contents, savepoints := s.savepoints }) := by
  have hsaved : (w.runOn s.setSavepoint others).2.savepoints =
      ⟨s.savepointCount + 1, s.contents⟩ :: s.savepoints :=
    congrArg Store.savepoints (hw s.setSavepoint)
  rw [atomic, runOn_ofRun]
  dsimp only
  rcases hrun : w.runOn s.setSavepoint others with ⟨e | a, t⟩
  · rw [hrun] at hsaved
    have hundo : t.undo s.setSavepoint.savepointCount = .ok _ := undo_head hsaved
    dsimp only
    rw [hundo]
  · rw [hrun] at hsaved
    have hrelease : t.release s.setSavepoint.savepointCount = .ok _ := release_head hsaved
    dsimp only
    rw [hrelease]

/-- A block keeps what its body keeps. -/
theorem Keeps.atomic {w : Work α} (hw : Keeps P w) : Keeps P (atomic w) where
  setting {others} s := by
    rw [runOn_atomic hw.setting]
    rcases hrun : w.runOn s.setSavepoint others with ⟨e | a, t⟩ <;>
      exact congrArg (fun u : Store => { u with savepoints := s.savepoints })
        (hw.setting_of_runOn hrun)
  contents {others} s hs := by
    rw [runOn_atomic hw.setting]
    rcases hrun : w.runOn s.setSavepoint others with ⟨e | a, t⟩
    · exact hs
    · have hafter : P t.contents := hw.contents_of_runOn (s := s.setSavepoint) hs hrun
      exact hafter

end Work

end Imageboard
