import Imageboard.Proofs.Store.Leading

/-!
# Transactions and what they can bring back

A transaction that is taken back and a savepoint that is gone back to bring earlier contents back.
What is to hold of the contents at all times therefore has to hold of these too, and then beginning,
committing and taking back keep it, whatever others do.
-/

namespace Imageboard

variable {P : Contents → Prop}

/-- The contents have a property, and so have those that can come back. -/
structure Store.Everywhere (P : Contents → Prop) (s : Store) : Prop where
  contents : P s.contents
  transaction : ∀ t ∈ s.transaction, P t.before
  savepoints : ∀ p ∈ s.savepoints, P p.before

/-- A store in which a transaction can be begun. -/
structure Store.Idle (s : Store) : Prop where
  transaction : s.transaction = none
  savepoints : s.savepoints = []
  free : s.heldElsewhere = false

/-- A job that is put into the queue. -/
def AfterCommit.job? : AfterCommit → Option Job
  | .enqueue job => some job
  | .log _ => none

/-- A label that is added to the log. -/
def AfterCommit.label? : AfterCommit → Option String
  | .enqueue _ => none
  | .log label => some label

namespace Store

/-- The store with a transaction begun. -/
def begun (s : Store) : Store :=
  { s with
    transaction := some ⟨s.transactionCount + 1, s.contents, []⟩
    transactionCount := s.transactionCount + 1 }

/-- What is done after a commit fills the queue and the log, in order. -/
theorem foldl_perform (actions : List AfterCommit) (s : Store) :
    actions.foldl perform s =
      { s with
        queue := s.queue ++ actions.filterMap AfterCommit.job?
        log := s.log ++ actions.filterMap AfterCommit.label? } := by
  induction actions generalizing s with
  | nil => simp
  | cons action rest ih =>
    rw [List.foldl_cons, ih]
    cases action <;> simp [perform, List.filterMap_cons, AfterCommit.job?, AfterCommit.label?]

/-- Ending a transaction keeps the contents and does what was put off. -/
theorem finished_of_some {s : Store} {t : Transaction} (h : s.transaction = some t) :
    s.finished =
      { s with
        transaction := none
        savepoints := []
        queue := s.queue ++ t.afterCommit.filterMap AfterCommit.job?
        log := s.log ++ t.afterCommit.filterMap AfterCommit.label? } := by
  rw [finished, h]
  exact foldl_perform _ _

/-- Taking a transaction back restores the contents from before it. -/
theorem rolledBack_of_some {s : Store} {t : Transaction} (h : s.transaction = some t) :
    s.rolledBack =
      { s with
        contents := t.before
        transaction := none
        savepoints := []
        aliasGeneration := s.aliasGeneration + 1 } := by
  rw [rolledBack, h]

/-! ## Contents that can come back -/

/-- A weaker property holds of the contents that can come back too. -/
theorem Everywhere.imp {Q : Contents → Prop} {s : Store} (hs : s.Everywhere P)
    (h : ∀ c, P c → Q c) : s.Everywhere Q where
  contents := h _ hs.contents
  transaction t ht := h _ (hs.transaction t ht)
  savepoints p hp := h _ (hs.savepoints p hp)

/-- The same is open in stores that are the same around their contents. -/
theorem open_of_setting {s t : Store} (h : t.setting = s.setting) :
    t.transaction = s.transaction ∧ t.savepoints = s.savepoints :=
  ⟨(congrArg Store.transaction h :), (congrArg Store.savepoints h :)⟩

/-- Nothing can come back that could not before if nothing was begun. -/
theorem Everywhere.of_setting {s t : Store} (hs : s.Everywhere P) (h : t.setting = s.setting)
    (hc : P t.contents) : t.Everywhere P := by
  obtain ⟨htransaction, hsavepoints⟩ := open_of_setting h
  exact ⟨hc, htransaction ▸ hs.transaction, hsavepoints ▸ hs.savepoints⟩

/-- With nothing open, only the contents matter. -/
theorem everywhere_of_closed {s : Store} (htransaction : s.transaction = none)
    (hsavepoints : s.savepoints = []) (hc : P s.contents) : s.Everywhere P where
  contents := hc
  transaction := by simp [htransaction]
  savepoints := by simp [hsavepoints]

/-- What others see is among the contents and what can come back. -/
theorem Everywhere.committed {s : Store} (hs : s.Everywhere P) : P s.committed := by
  rw [Store.committed]
  split
  next t ht => exact hs.transaction t ht
  next p _ hp => exact hs.savepoints p (List.mem_of_getLast? hp)
  next => exact hs.contents

/-- A savepoint brings back what is there when it is set. -/
theorem Everywhere.setSavepoint {s : Store} (hs : s.Everywhere P) : s.setSavepoint.Everywhere P where
  contents := hs.contents
  transaction := hs.transaction
  savepoints := List.forall_mem_cons.2 ⟨hs.contents, hs.savepoints⟩

/-- A savepoint that is found is one of those that are searched, and so are those before it. -/
theorem savepointsFrom_subset {number : Nat} {ps rest : List Savepoint} {p : Savepoint}
    (h : savepointsFrom number ps = some (p, rest)) : p :: rest ⊆ ps := by
  induction ps with
  | nil => cases h
  | cons first more ih =>
    rw [savepointsFrom] at h
    split at h
    · obtain ⟨rfl, rfl⟩ := Prod.mk.inj (Option.some.inj h)
      exact List.Subset.refl _
    · exact List.Subset.trans (ih h) (List.subset_cons_self _ _)

/-- Going back to a savepoint keeps what holds of all that can come back. -/
theorem Everywhere.undo {s t : Store} {number : Nat} (hs : s.Everywhere P)
    (h : s.undo number = .ok t) : t.Everywhere P := by
  rw [Store.undo] at h
  split at h
  next p rest hfound =>
    obtain rfl := Except.ok.inj h
    have hsaved := savepointsFrom_subset hfound
    exact ⟨hs.savepoints p (hsaved List.mem_cons_self), hs.transaction,
      fun q hq => hs.savepoints q (hsaved (List.mem_cons_of_mem _ hq))⟩
  next => contradiction

/-- Removing a savepoint keeps what holds of all that can come back. -/
theorem Everywhere.release {s t : Store} {number : Nat} (hs : s.Everywhere P)
    (h : s.release number = .ok t) : t.Everywhere P := by
  rw [Store.release] at h
  split at h
  next p rest hfound =>
    obtain rfl := Except.ok.inj h
    have hsaved := savepointsFrom_subset hfound
    exact ⟨hs.contents, hs.transaction,
      fun q hq => hs.savepoints q (hsaved (List.mem_cons_of_mem _ hq))⟩
  next => contradiction

/-- Taking a transaction back keeps what holds of all that can come back. -/
theorem Everywhere.rolledBack {s : Store} (hs : s.Everywhere P) : s.rolledBack.Everywhere P := by
  rcases htransaction : s.transaction with _ | t
  · rwa [Store.rolledBack, htransaction]
  · rw [rolledBack_of_some htransaction]
    exact everywhere_of_closed rfl rfl (hs.transaction t htransaction)

/-- Ending a transaction keeps what holds of all that can come back. -/
theorem Everywhere.finished {s : Store} (hs : s.Everywhere P) : s.finished.Everywhere P := by
  rcases htransaction : s.transaction with _ | t
  · rwa [Store.finished, htransaction]
  · rw [finished_of_some htransaction]
    exact everywhere_of_closed rfl rfl hs.contents

end Store

namespace Work

variable {α : Type} {others : Others}

/-- A property of stores that some work keeps, whether it succeeds or fails. -/
def Preserves (I : Store → Prop) (w : Work α) : Prop :=
  ∀ s {others : Others}, I s → I (w.runOn s others).2

/-- Work that keeps a property of the contents and begins nothing keeps it of all that can come
back. -/
theorem Keeps.preserves {w : Work α} (hw : Keeps P w) : Preserves (Store.Everywhere P) w :=
  fun s _ hs => hs.of_setting (hw.setting s) (hw.contents s hs.contents)

/-- A sequence keeps what its steps keep. -/
theorem Preserves.bind {β : Type} {I : Store → Prop} {x : Work α} {f : α → Work β}
    (hx : Preserves I x) (hf : ∀ a, Preserves I (f a)) : Preserves I (x >>= f) := by
  intro s others hs
  have hfirst : I (x.runOn s others).2 := hx s hs
  rw [runOn_bind]
  rcases hrun : x.runOn s others with ⟨_ | a, m⟩
  · rwa [hrun] at hfirst
  · rw [hrun] at hfirst
    exact hf a m hfirst

/-- Putting something off changes no contents that can come back. -/
theorem preserves_afterCommit (number : Nat) (action : AfterCommit) :
    Preserves (Store.Everywhere P) (afterCommit number action) := by
  intro s others hs
  rw [afterCommit, runOn_modify]
  dsimp only
  split
  next t ht =>
    split
    · exact ⟨hs.contents, fun u hu => Option.some.inj hu ▸ hs.transaction t ht, hs.savepoints⟩
    · exact hs
  next => exact hs

/-- A transaction begins in an idle store. -/
theorem runOn_begin_of_idle {s : Store} (h : s.Idle) :
    begin.runOn s = (.ok (s.transactionCount + 1), s.begun) := by
  have hno : ¬ s.transaction.isSome = true := by simp [h.transaction]
  have hnone : ¬ (!s.savepoints.isEmpty) = true := by simp [h.savepoints]
  have hallowed : ¬ s.isRefused .absent = true := by simp [isRefused_absent, h.free]
  rw [begin, runOn_bind_of_ok (runOn_get s), if_neg hno, if_neg hnone,
    runOn_bind_of_ok (runOn_readThe s), if_neg hallowed]
  rfl

/-- No transaction begins in another store. -/
theorem runOn_begin_of_not_idle {s : Store} (h : ¬ s.Idle) :
    ∃ e, begin.runOn s = (.error e, s) := by
  rw [begin, runOn_bind_of_ok (runOn_get s)]
  split
  · exact ⟨_, rfl⟩
  next htransaction =>
    split
    · exact ⟨_, rfl⟩
    next hsavepoints =>
      rw [runOn_bind_of_ok (runOn_readThe s)]
      split
      · exact ⟨_, rfl⟩
      next hallowed =>
        exact absurd ⟨by simpa using htransaction, by simpa using hsavepoints,
          by simpa [isRefused_absent] using hallowed⟩ h

/-- Beginning a transaction is a statement. -/
theorem isStatement_begin : IsStatement begin := by
  intro s others
  rw [begin, runOn_bind_of_ok (runOn_get s), runOn_bind_of_ok (runOn_get s)]
  split
  · exact Or.inl rfl
  split
  · exact Or.inl rfl
  rw [runOn_bind_of_ok (runOn_readThe s), runOn_bind_of_ok (runOn_readThe s)]
  cases hrefused : s.isRefused others with
  | true => exact Or.inr ⟨_, rfl⟩
  | false =>
    have hfree : s.heldElsewhere = false := (Bool.or_eq_false_iff.1 hrefused).1
    rw [isRefused_absent, hfree]
    exact Or.inl rfl

/-- A transaction that begins is the next one of the store. -/
theorem runOn_begin_eq_ok {s t : Store} {number : Nat} (hrun : begin.runOn s others = (.ok number, t)) :
    number = s.transactionCount + 1 ∧ t = s.begun := by
  have halone := isStatement_begin.runOn_eq_ok hrun
  by_cases hidle : s.Idle
  · rw [runOn_begin_of_idle hidle] at halone
    obtain ⟨hnumber, rfl⟩ := Prod.mk.inj halone
    exact ⟨(Except.ok.inj hnumber).symm, rfl⟩
  · obtain ⟨e, he⟩ := runOn_begin_of_not_idle hidle
    rw [he] at halone
    cases halone

/-- Beginning a transaction keeps what holds of all that can come back. -/
theorem preserves_begin : Preserves (Store.Everywhere P) begin := by
  intro s others hs
  rcases isStatement_begin s others with halone | ⟨e, he⟩
  · rw [halone]
    by_cases hidle : s.Idle
    · rw [runOn_begin_of_idle hidle]
      exact ⟨hs.contents, fun t ht => Option.some.inj ht ▸ hs.contents, hs.savepoints⟩
    · obtain ⟨e, he⟩ := runOn_begin_of_not_idle hidle
      rwa [he]
  · rwa [he]

/-- A transaction that is not open is not committed. -/
theorem runOn_commit_of_closed {s : Store} {number : Nat} (h : s.isOpen number = false) :
    (commit number).runOn s others = (.error .transactionInactive, s) := by
  rw [commit, runOn_bind_of_ok (runOn_get s), h]
  rfl

/-- A transaction whose commit fails is taken back. -/
theorem runOn_commit_of_failing {s : Store} {number : Nat} (h : s.isOpen number = true)
    (hfails : s.commitsFail = true) :
    (commit number).runOn s others =
      (.error (.execution .committing .diskError none), s.rolledBack) := by
  rw [commit, runOn_bind_of_ok (runOn_get s), h, hfails]
  rfl

/-- A transaction that is open is committed. -/
theorem runOn_commit_of_open {s : Store} {number : Nat} (h : s.isOpen number = true)
    (hworks : s.commitsFail = false) : (commit number).runOn s others = (.ok (), s.finished) := by
  rw [commit, runOn_bind_of_ok (runOn_get s), h, hworks]
  rfl

/-- Committing keeps what holds of all that can come back. -/
theorem preserves_commit (number : Nat) : Preserves (Store.Everywhere P) (commit number) := by
  intro s others hs
  cases hopen : s.isOpen number with
  | false => rwa [runOn_commit_of_closed hopen]
  | true =>
    cases hfails : s.commitsFail with
    | true =>
      rw [runOn_commit_of_failing hopen hfails]
      exact hs.rolledBack
    | false =>
      rw [runOn_commit_of_open hopen hfails]
      exact hs.finished

/-- Taking back keeps what holds of all that can come back. -/
theorem preserves_rollback (number : Nat) : Preserves (Store.Everywhere P) (rollback number) := by
  intro s others hs
  rw [rollback, runOn_modify]
  dsimp only
  split
  · exact hs.rolledBack
  · exact hs

/-- A transaction of its own keeps what its work keeps. -/
theorem preserves_inTransaction {w : Nat → Work α}
    (hw : ∀ number, Preserves (Store.Everywhere P) (w number)) :
    Preserves (Store.Everywhere P) (inTransaction w) := by
  refine preserves_begin.bind fun number => ?_
  intro s others hs
  have hafter : ((w number).runOn s others).2.Everywhere P := hw number s hs
  rw [runOn_ofRun]
  rcases hwork : (w number).runOn s others with ⟨e | a, t⟩
  · rw [hwork] at hafter
    dsimp only
    split
    · exact hafter.rolledBack
    · exact hafter
  · rw [hwork] at hafter
    dsimp only
    split
    · refine (preserves_commit number).bind (fun _ => ?_) t hafter
      exact fun _ _ h => h
    · exact hafter

section InTransaction

variable {w : Nat → Work α} {s t : Store}

/-- Work that begins and ends nothing leaves the transaction open in which it is done. -/
theorem transaction_of_setting_begun {m : Store} (h : m.setting = s.begun.setting) :
    m.transaction = some ⟨s.transactionCount + 1, s.contents, []⟩ ∧
      m.isOpen (s.transactionCount + 1) = true := by
  have htransaction : m.transaction = s.begun.transaction := (congrArg Store.transaction h :)
  exact ⟨htransaction, by simp [Store.isOpen, htransaction, Store.begun]⟩

/-- A transaction of its own keeps what its work leads back to, because it takes back what fails. -/
theorem preserves_inTransaction_of_leads
    (hsetting : ∀ number {others : Others} (s), ((w number).runOn s others).2.setting = s.setting)
    (hw : ∀ number, Leads P (w number) fun _ => P) :
    Preserves (Store.Everywhere P) (inTransaction w) := by
  intro s others hs
  have hbegin : (begin.runOn s others).2.Everywhere P := preserves_begin s hs
  rw [inTransaction, runOn_bind]
  rcases hrun : begin.runOn s others with ⟨e | number, t⟩
  · rwa [hrun] at hbegin
  obtain ⟨rfl, rfl⟩ := runOn_begin_eq_ok hrun
  have hafter : ((w (s.transactionCount + 1)).runOn s.begun others).2.setting = s.begun.setting :=
    hsetting _ _
  dsimp only
  rw [runOn_ofRun]
  rcases hwork : (w (s.transactionCount + 1)).runOn s.begun others with ⟨e | a, m⟩
  all_goals
    rw [hwork] at hafter
    obtain ⟨htransaction, hopen⟩ := transaction_of_setting_begun hafter
    dsimp only
    rw [if_pos hopen]
  · rw [Store.rolledBack_of_some htransaction]
    exact Store.everywhere_of_closed rfl rfl hs.contents
  · rw [hrun] at hbegin
    have hm := hbegin.of_setting hafter (hw _ s.begun a m hs.contents hwork)
    refine (preserves_commit _).bind (fun _ => ?_) m hm
    exact fun _ _ h => h

/-- In an idle store the work is done, and then committed or, if it or the commit fails, taken back. -/
theorem runOn_inTransaction_of_idle (h : s.Idle)
    (hsetting : ∀ number s, ((w number).runOn s).2.setting = s.setting) :
    (inTransaction w).runOn s =
      match (w (s.transactionCount + 1)).runOn s.begun with
      | (.error e, m) => (.error e, m.rolledBack)
      | (.ok a, m) =>
        if m.commitsFail then (.error (.execution .committing .diskError none), m.rolledBack)
        else (.ok a, m.finished) := by
  have hafter := hsetting (s.transactionCount + 1) s.begun
  rw [inTransaction, runOn_bind_of_ok (runOn_begin_of_idle h), runOn_ofRun]
  generalize (w (s.transactionCount + 1)).runOn s.begun = done at hafter ⊢
  obtain ⟨e | a, m⟩ := done <;> obtain ⟨-, hopen⟩ := transaction_of_setting_begun hafter <;> dsimp only
  · rw [if_pos hopen]
  · rw [if_pos hopen]
    change (commit (s.transactionCount + 1) >>= fun _ => pure a).runOn m = _
    cases hfails : m.commitsFail with
    | true =>
      rw [runOn_bind_of_error (runOn_commit_of_failing hopen hfails)]
      rfl
    | false =>
      rw [runOn_bind_of_ok (runOn_commit_of_open hopen hfails)]
      rfl

/-- In another store nothing is done. -/
theorem runOn_inTransaction_of_not_idle (h : ¬ s.Idle) :
    ∃ e, (inTransaction w).runOn s = (.error e, s) := by
  obtain ⟨e, he⟩ := runOn_begin_of_not_idle h
  exact ⟨e, runOn_bind_of_error he⟩

/-- A transaction of its own that succeeds leaves the contents that its work has left. -/
theorem runOn_inTransaction_eq_ok {a : α}
    (hsetting : ∀ number s, ((w number).runOn s).2.setting = s.setting)
    (hrun : (inTransaction w).runOn s = (.ok a, t)) :
    s.Idle ∧ ∃ m, (w (s.transactionCount + 1)).runOn s.begun = (.ok a, m) ∧
      t.contents = m.contents := by
  have hafter := hsetting (s.transactionCount + 1) s.begun
  by_cases hidle : s.Idle
  · rw [runOn_inTransaction_of_idle hidle hsetting] at hrun
    refine ⟨hidle, ?_⟩
    generalize (w (s.transactionCount + 1)).runOn s.begun = done at hafter hrun ⊢
    obtain ⟨e | b, m⟩ := done
    · cases hrun
    obtain ⟨htransaction, -⟩ := transaction_of_setting_begun hafter
    dsimp only at hrun
    split at hrun
    · cases hrun
    · obtain ⟨hb, rfl⟩ := Prod.mk.inj hrun
      exact ⟨m, by rw [Except.ok.inj hb], by rw [Store.finished_of_some htransaction]⟩
  · obtain ⟨e, he⟩ := runOn_inTransaction_of_not_idle (w := w) hidle
    rw [he] at hrun
    cases hrun

/-- A transaction of its own that fails leaves the contents as they were. -/
theorem contents_of_runOn_inTransaction_eq_error {e : Failure}
    (hsetting : ∀ number s, ((w number).runOn s).2.setting = s.setting)
    (hrun : (inTransaction w).runOn s = (.error e, t)) : t.contents = s.contents := by
  have hafter := hsetting (s.transactionCount + 1) s.begun
  by_cases hidle : s.Idle
  · rw [runOn_inTransaction_of_idle hidle hsetting] at hrun
    have hback : t = ((w (s.transactionCount + 1)).runOn s.begun).2.rolledBack := by
      generalize (w (s.transactionCount + 1)).runOn s.begun = done at hrun ⊢
      obtain ⟨e' | a, m⟩ := done
      · exact (Prod.mk.inj hrun).2.symm
      dsimp only at hrun
      split at hrun
      · exact (Prod.mk.inj hrun).2.symm
      · cases hrun
    rw [hback, Store.rolledBack_of_some (transaction_of_setting_begun hafter).1]
  · obtain ⟨e', he⟩ := runOn_inTransaction_of_not_idle (w := w) hidle
    rw [he] at hrun
    exact congrArg Store.contents (Prod.mk.inj hrun).2.symm

end InTransaction

end Work

end Imageboard
