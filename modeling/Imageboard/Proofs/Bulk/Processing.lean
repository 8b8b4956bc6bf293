import Imageboard.Proofs.Bulk.Applying

/-!
# Bulk updates take effect as a whole or not at all

A bulk update succeeds exactly if its script can be read, a transaction can be begun, each command
succeeds on what those before it left, and the commit succeeds. Then the contents are what the last
command left, and the jobs are in the queue. Whatever else happens, the contents and the queue are
as they were before, and no transaction is open that was not.
-/

namespace Imageboard.Bulk

open Store Work

/-- Nothing that others can see of a store has changed. -/
structure Untouched (s t : Store) : Prop where
  contents : t.contents = s.contents
  transaction : t.transaction = s.transaction
  savepoints : t.savepoints = s.savepoints
  queue : t.queue = s.queue
  log : t.log = s.log

/-- A store is untouched by nothing. -/
theorem Untouched.refl (s : Store) : Untouched s s :=
  ⟨rfl, rfl, rfl, rfl, rfl⟩

/-- What others see does not change either. -/
theorem Untouched.committed {s t : Store} (h : Untouched s t) : t.committed = s.committed := by
  rw [Store.committed, Store.committed, h.contents, h.transaction, h.savepoints]

/-- Within a transaction only the contents have changed, and some jobs have been put off. -/
structure Within (s t : Store) (jobs : List Job) : Prop where
  idle : s.Idle
  setting : t.setting = (s.begun.deferring jobs).setting

namespace Within

variable {s t : Store} {jobs : List Job}

/-- The transaction that is open. -/
theorem transaction (h : Within s t jobs) :
    t.transaction = some ⟨s.transactionCount + 1, s.contents, jobs.map AfterCommit.enqueue⟩ :=
  (congrArg Store.transaction h.setting :)

/-- The transaction is open by its number. -/
theorem isOpen (h : Within s t jobs) : t.isOpen (s.transactionCount + 1) = true := by
  simp [Store.isOpen, h.transaction]

/-- Taking the transaction back leaves nothing of it. -/
theorem untouched (h : Within s t jobs) : Untouched s t.rolledBack := by
  rw [rolledBack_of_some h.transaction]
  exact ⟨rfl, h.idle.transaction.symm, h.idle.savepoints.symm, (congrArg Store.queue h.setting :),
    (congrArg Store.log h.setting :)⟩

/-- Committing puts the jobs into the queue. -/
theorem queue_finished (h : Within s t jobs) : t.finished.queue = s.queue ++ jobs := by
  have hqueue : t.queue = s.queue := (congrArg Store.queue h.setting :)
  have hjobs : (jobs.map AfterCommit.enqueue).filterMap AfterCommit.job? = jobs := by
    rw [List.filterMap_map]
    exact List.filterMap_some
  rw [finished_of_some h.transaction, hqueue, hjobs]

end Within

namespace Update

variable {u : Update} {viewer : Viewer} {s : Store} {cs : List NumberedCommand}

/-- An update succeeds: its script can be read, a transaction can be begun, all commands succeed and
so does the commit. -/
structure Succeeds (u : Update) (viewer : Viewer) (s : Store) (cs : List NumberedCommand)
    (ms : List Mutation) (inside : Store) : Prop where
  readable : u.commands = .ok cs
  idle : s.Idle
  applied : Applied u viewer (s.transactionCount + 1) cs s.begun ms inside
  commits : s.commitsFail = false

/-- Commands that succeed in a transaction that was just begun stay within it. -/
theorem Applied.within {number : Nat} {ms : List Mutation} {t : Store} (hidle : s.Idle)
    (hnumber : number = s.transactionCount + 1) (h : Applied u viewer number cs s.begun ms t) :
    Within s t (jobsOf viewer cs) :=
  ⟨hidle, h.setting (by simp [Store.isOpen, begun, hnumber])⟩

/-- A script that can be read is applied by applying its commands. -/
theorem runOn_apply (hread : u.commands = .ok cs) (number : Nat) (t : Store) :
    (u.apply viewer number).runOn t = (u.applyEach viewer number [] cs).runOn t := by
  rw [apply, hread, runOn_bind_of_ok (runOn_lift _ t)]

/-- An update in an idle store applies its script in a transaction and concludes. -/
theorem runOn_process_of_idle (hread : u.commands = .ok cs) (hidle : s.Idle) :
    (u.process viewer).runOn s =
      match (u.applyEach viewer (s.transactionCount + 1) [] cs).runOn s.begun with
      | (.ok outcome, t) => (conclude (s.transactionCount + 1) outcome).runOn t
      | (.error e, t) =>
        (.error e, if t.isOpen (s.transactionCount + 1) then t.rolledBack else t) := by
  rw [process, hread]
  dsimp only
  rw [runOn_bind, runOn_ofRun, runOn_begin_of_idle hidle]
  dsimp only
  rw [applyAndConclude, runOn_bind, runOn_ofRun, runOn_apply hread]
  rcases (u.applyEach viewer (s.transactionCount + 1) [] cs).runOn s.begun with ⟨e | outcome, t⟩ <;>
    rfl

/-- Concluding a success whose commit fails takes the transaction back. -/
theorem runOn_conclude_of_failing {number : Nat} {ms : List Mutation} {t : Store}
    (hopen : t.isOpen number = true) (hfails : t.commitsFail = true) :
    (conclude number (.success ms)).runOn t =
      (.ok (.failure (.execution .committing .diskError none) none), t.rolledBack) := by
  rw [conclude, runOn_ofRun, runOn_commit_of_failing hopen hfails]

/-- Concluding a success commits the transaction. -/
theorem runOn_conclude_of_open {number : Nat} {ms : List Mutation} {t : Store}
    (hopen : t.isOpen number = true) (hworks : t.commitsFail = false) :
    (conclude number (.success ms)).runOn t = (.ok (.success ms), t.finished) := by
  rw [conclude, runOn_ofRun, runOn_commit_of_open hopen hworks]

/-- Concluding a failure takes the transaction back. -/
theorem runOn_conclude_failure {number : Nat} {cause : Failure} {c : Option NumberedCommand}
    {t : Store} (hopen : t.isOpen number = true) :
    (conclude number (.failure cause c)).runOn t = (.ok (.failure cause c), t.rolledBack) := by
  rw [conclude, Work.rollback, runOn_bind_of_ok (runOn_modify _ t), if_pos hopen]
  rfl

/-- An update that succeeds reports all its changes and leaves what its commands left, committed. -/
theorem Succeeds.runOn_process {ms : List Mutation} {inside : Store}
    (h : u.Succeeds viewer s cs ms inside) :
    (u.process viewer).runOn s = (.ok (.success ms), inside.finished) := by
  have hwithin := h.applied.within h.idle rfl
  have hworks : inside.commitsFail = false :=
    (congrArg Store.commitsFail hwithin.setting :).trans h.commits
  rw [runOn_process_of_idle h.readable h.idle, h.applied.runOn_applyEach]
  exact runOn_conclude_of_open hwithin.isOpen hworks

/-- An update that succeeds leaves the contents that its commands left. -/
theorem Succeeds.contents_process {ms : List Mutation} {inside : Store}
    (h : u.Succeeds viewer s cs ms inside) :
    ((u.process viewer).runOn s).2.contents = inside.contents := by
  rw [h.runOn_process, finished_of_some (h.applied.within h.idle rfl).transaction]

/-- An update that does not succeed reports no success and changes nothing that others can see. -/
theorem runOn_process_of_not_succeeds
    (h : ¬ ∃ cs ms inside, u.Succeeds viewer s cs ms inside) :
    ∃ r t, (u.process viewer).runOn s = (r, t) ∧ (∀ ms, r ≠ .ok (.success ms)) ∧ Untouched s t := by
  rcases hread : u.commands with e | cs
  · refine ⟨.ok (.failure e none), s, ?_, by simp, .refl s⟩
    rw [process, hread]
    rfl
  by_cases hidle : s.Idle
  · rcases applied_or_fails u viewer (s.transactionCount + 1) cs s.begun with
      ⟨ms, inside, happlied⟩ | ⟨before, c, after, ms, m, e, t, rfl, hbefore, hfails⟩
    · have hwithin := happlied.within hidle rfl
      have hfails : s.commitsFail = true := by
        simpa using fun hworks => h ⟨cs, ms, inside, hread, hidle, happlied, hworks⟩
      have hcommit : inside.commitsFail = true :=
        (congrArg Store.commitsFail hwithin.setting :).trans hfails
      rw [runOn_process_of_idle hread hidle, happlied.runOn_applyEach]
      exact ⟨_, _, runOn_conclude_of_failing hwithin.isOpen hcommit, by simp, hwithin.untouched⟩
    · have hm := hbefore.within hidle rfl
      have ht : Within s t (jobsOf viewer before) :=
        ⟨hidle, (setting_of_applyCommand_error hm.isOpen hfails).trans hm.setting⟩
      rw [runOn_process_of_idle hread hidle, hbefore.runOn_applyEach_error hfails]
      cases reported? c e with
      | some cause =>
        exact ⟨_, _, runOn_conclude_failure ht.isOpen, by simp, ht.untouched⟩
      | none =>
        refine ⟨_, _, rfl, by simp, ?_⟩
        rw [if_pos ht.isOpen]
        exact ht.untouched
  · obtain ⟨e, he⟩ := runOn_begin_of_not_idle hidle
    rw [process, hread]
    dsimp only
    rw [runOn_bind, runOn_ofRun, he]
    cases e <;> exact ⟨_, _, rfl, by simp, .refl s⟩

/-- An update either succeeds and commits what its commands left, or changes nothing. -/
theorem process_cases (u : Update) (viewer : Viewer) (s : Store) :
    (∃ cs ms inside, u.Succeeds viewer s cs ms inside ∧ Within s inside (jobsOf viewer cs) ∧
      (u.process viewer).runOn s = (.ok (.success ms), inside.finished)) ∨
    (¬ ∃ cs ms inside, u.Succeeds viewer s cs ms inside) ∧
      ∃ r t, (u.process viewer).runOn s = (r, t) ∧ (∀ ms, r ≠ .ok (.success ms)) ∧
        Untouched s t := by
  by_cases h : ∃ cs ms inside, u.Succeeds viewer s cs ms inside
  · obtain ⟨cs, ms, inside, hsucceeds⟩ := h
    exact Or.inl ⟨cs, ms, inside, hsucceeds, hsucceeds.applied.within hsucceeds.idle rfl,
      hsucceeds.runOn_process⟩
  · exact Or.inr ⟨h, runOn_process_of_not_succeeds h⟩

/-- An update keeps, of the contents, what each of its commands leads back to. -/
theorem contents_process {P : Contents → Prop}
    (hcommands : ∀ number c, Leads P (u.applyCommand viewer number c) fun _ => P)
    (hs : P s.contents) : P ((u.process viewer).runOn s).2.contents := by
  rcases process_cases u viewer s with
    ⟨cs, ms, inside, hsucceeds, hwithin, hrun⟩ | ⟨-, r, t, hrun, -, huntouched⟩
  · rw [hrun, finished_of_some hwithin.transaction]
    exact hsucceeds.applied.keeps (fun c _ => hcommands _ c.command) hs
  · rw [hrun, huntouched.contents]
    exact hs

/-! ## Amid others -/

section Amid

variable {P : Contents → Prop} {number : Nat}
  (hcommands : ∀ number c, Preserves (Store.Everywhere P) (u.applyCommand viewer number c))
include hcommands

/-- Applying commands up to the first that fails keeps what each of them keeps. -/
theorem preserves_applyEach (done : List Mutation) (cs : List NumberedCommand) :
    Preserves (Store.Everywhere P) (u.applyEach viewer number done cs) := by
  induction cs generalizing done with
  | nil => exact (keeps_pure _).preserves
  | cons c rest ih =>
    refine Preserves.bind (fun s others hs => ?_) fun applied => ?_
    · have hafter : ((u.applyCommand viewer number c.command).runOn s others).2.Everywhere P :=
        hcommands number c.command s hs
      rw [runOn_ofRun]
      rcases hrun : (u.applyCommand viewer number c.command).runOn s others with ⟨e | n, t⟩
      · rw [hrun] at hafter
        dsimp only
        split <;> exact hafter
      · rwa [hrun] at hafter
    · cases applied with
      | error cause => exact (keeps_pure _).preserves
      | ok n => exact ih _

/-- Applying a script in the transaction of someone else keeps what each of its commands keeps. -/
theorem preserves_apply : Preserves (Store.Everywhere P) (u.apply viewer number) :=
  (keeps_lift _).preserves.bind fun cs => preserves_applyEach hcommands [] cs

omit hcommands in
/-- Ending the transaction of a script keeps what holds of all that can come back. -/
theorem preserves_conclude (outcome : Outcome) :
    Preserves (Store.Everywhere P) (conclude number outcome) := by
  cases outcome with
  | success mutations =>
    intro s others hs
    have hcommit : ((commit number).runOn s others).2.Everywhere P := preserves_commit number s hs
    rw [conclude, runOn_ofRun]
    rcases hrun : (commit number).runOn s others with ⟨e | _, t⟩
    · rw [hrun] at hcommit
      cases e <;> exact hcommit
    · rwa [hrun] at hcommit
  | failure cause command =>
    exact (preserves_rollback number).bind fun _ => (keeps_pure _).preserves

/-- Applying a script and ending the transaction keeps what each of its commands keeps. -/
theorem preserves_applyAndConclude :
    Preserves (Store.Everywhere P) (u.applyAndConclude viewer number) := by
  refine Preserves.bind (fun s others hs => ?_) fun outcome => preserves_conclude outcome
  have hafter : ((u.apply viewer number).runOn s others).2.Everywhere P :=
    preserves_apply hcommands s hs
  rw [runOn_ofRun]
  rcases hrun : (u.apply viewer number).runOn s others with ⟨e | outcome, t⟩
  · rw [hrun] at hafter
    dsimp only
    split
    · exact hafter.rolledBack
    · exact hafter
  · rwa [hrun] at hafter

/-- An update keeps, of all contents that can come back, what each of its commands keeps, whatever others do
meanwhile. -/
theorem preserves_process : Preserves (Store.Everywhere P) (u.process viewer) := by
  rw [process]
  cases hread : u.commands with
  | error e => exact (keeps_pure _).preserves
  | ok cs =>
    refine Preserves.bind (fun s others hs => ?_) fun begun => ?_
    · have hbegin : (begin.runOn s others).2.Everywhere P := preserves_begin s hs
      rw [runOn_ofRun]
      rcases hrun : begin.runOn s others with ⟨e | n, t⟩
      · rw [hrun] at hbegin
        cases e <;> exact hbegin
      · rwa [hrun] at hbegin
    · cases begun with
      | error e => exact (keeps_pure _).preserves
      | ok number => exact preserves_applyAndConclude hcommands

end Amid

/-- All of an update takes effect: each command is reported in order, the contents that the last one
left are committed, and exactly the jobs of the script are added to the queue. -/
def TakesEffect (u : Update) (viewer : Viewer) (s : Store) : Prop :=
  ∃ cs ms inside t, u.Succeeds viewer s cs ms inside ∧
    (u.process viewer).runOn s = (.ok (.success ms), t) ∧ ms.map (·.command) = cs ∧
    t.contents = inside.contents ∧ t.committed = inside.contents ∧
    t.queue = s.queue ++ jobsOf viewer cs ∧ t.transaction = none

/-- Nothing of an update takes effect: it does not report success, no table and no queue has changed,
and no transaction is open. -/
def TakesNoEffect (u : Update) (viewer : Viewer) (s : Store) : Prop :=
  ∃ r t, (u.process viewer).runOn s = (r, t) ∧ (∀ ms, r ≠ .ok (.success ms)) ∧
    t.contents = s.contents ∧ t.committed = s.committed ∧ t.queue = s.queue ∧ t.transaction = none

/-- A bulk update on a store without an open transaction takes effect as a whole or not at all. It
does so exactly if its script can be read, a transaction can be begun, every command succeeds on
what those before it left, and the commit succeeds. -/
theorem process_wholeOrNothing (u : Update) (viewer : Viewer) (s : Store)
    (hclosed : s.transaction = none) :
    (∃ cs ms inside, u.Succeeds viewer s cs ms inside) ∧ u.TakesEffect viewer s ∨
      (¬ ∃ cs ms inside, u.Succeeds viewer s cs ms inside) ∧ u.TakesNoEffect viewer s := by
  rcases process_cases u viewer s with
    ⟨cs, ms, inside, hsucceeds, hwithin, hrun⟩ | ⟨hfails, r, t, hrun, hreport, huntouched⟩
  · have hfinished := finished_of_some hwithin.transaction
    refine Or.inl ⟨⟨cs, ms, inside, hsucceeds⟩, cs, ms, inside, _, hsucceeds, hrun,
      hsucceeds.applied.commands_eq, ?_, ?_, hwithin.queue_finished, ?_⟩
    · rw [hfinished]
    · rw [hfinished]
      rfl
    · rw [hfinished]
  · exact Or.inr ⟨hfails, r, t, hrun, hreport, huntouched.contents, huntouched.committed,
      huntouched.queue, huntouched.transaction.trans hclosed⟩

/-- An alias and a mass update take effect on an empty store, and the job of the mass update is in the
queue. -/
theorem process_wholeOrNothing_empty :
    let u : Update := .ofText "alias kitty -> cat\nupdate dog -> cat" .standard
    let s : Store := .ofContents .empty ⟨0, 0⟩ .standard
    s.transaction = none ∧ u.TakesEffect .anonymous s ∧
      ((u.process .anonymous).runOn s).2.queue = [⟨"dog", "cat", none, none⟩] := by
  intro u s
  have hqueue : ((u.process .anonymous).runOn s).2.queue = [⟨"dog", "cat", none, none⟩] := by
    decide +kernel
  refine ⟨rfl, ?_, hqueue⟩
  rcases process_wholeOrNothing u .anonymous s rfl with ⟨-, heffect⟩ | ⟨-, r, t, hrun, -, -, -, hsame, -⟩
  · exact heffect
  · rw [hrun] at hqueue
    cases hqueue.symm.trans hsame

end Update

end Imageboard.Bulk
