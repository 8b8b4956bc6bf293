import Imageboard.Bulk.Update
import Imageboard.Proofs.Relationship.Changing
import Imageboard.Proofs.Store.Transactions

/-!
# Applying the commands of a script

The commands of a script are applied one after the other until one fails. Inside a transaction they
change the contents, and they put jobs off until it is committed; nothing else around the contents
changes. The main statement says how the application of a script ends: after all commands, or at the
first one that fails on what those before it left.
-/

namespace Imageboard

variable {P : Contents → Prop}

/-- The store with some jobs put off until its transaction is committed. -/
def Store.deferring (s : Store) (jobs : List Job) : Store :=
  { s with
    transaction := s.transaction.map fun t =>
      { t with afterCommit := t.afterCommit ++ jobs.map AfterCommit.enqueue } }

namespace Store

/-- Putting off no job changes nothing. -/
theorem deferring_nil (s : Store) : s.deferring [] = s := by
  rcases h : s.transaction with _ | t <;> cases s <;> simp_all [deferring]

/-- Jobs that are put off after others stand behind them. -/
theorem deferring_deferring (s : Store) (first second : List Job) :
    (s.deferring first).deferring second = s.deferring (first ++ second) := by
  rcases h : s.transaction with _ | t <;> simp [deferring, h]

/-- Putting jobs off concerns only what is around the contents. -/
theorem setting_deferring {s t : Store} (h : t.setting = s.setting) (jobs : List Job) :
    (t.deferring jobs).setting = (s.deferring jobs).setting :=
  congrArg (fun u : Store => u.deferring jobs) h

/-- Putting jobs off keeps a transaction open. -/
theorem isOpen_deferring (s : Store) (jobs : List Job) (number : Nat) :
    (s.deferring jobs).isOpen number = s.isOpen number := by
  rcases h : s.transaction with _ | t <;> simp [deferring, isOpen, h]

/-- Which transaction is open is no matter of the contents. -/
theorem isOpen_of_setting {s t : Store} (h : t.setting = s.setting) (number : Nat) :
    t.isOpen number = s.isOpen number :=
  (congrArg (fun u : Store => u.isOpen number) h :)

end Store

namespace Bulk

open Store Relationship Work

/-- The job of a command, for whoever applies it. -/
def jobOf? (viewer : Viewer) : Command → Option Job
  | .massUpdate query replacement => some ⟨query, replacement, viewer.userId, viewer.userName⟩
  | _ => none

/-- The jobs of some commands, in order. -/
def jobsOf (viewer : Viewer) (cs : List NumberedCommand) : List Job :=
  cs.filterMap fun c => jobOf? viewer c.command

namespace Update

variable {u : Update} {viewer : Viewer} {number : Nat}

/-- Some commands succeed one after the other, each on what those before it left. -/
inductive Applied (u : Update) (viewer : Viewer) (number : Nat) :
    List NumberedCommand → Store → List Mutation → Store → Prop
  | nil (s : Store) : Applied u viewer number [] s [] s
  | cons {c : NumberedCommand} {rest : List NumberedCommand} {s m t : Store} {n : Int}
      {ms : List Mutation} (hfirst : (u.applyCommand viewer number c.command).runOn s = (.ok n, m))
      (hrest : Applied u viewer number rest m ms t) :
      Applied u viewer number (c :: rest) s (⟨c, n⟩ :: ms) t

/-! ## Single commands -/

/-- Taking a relationship out of force keeps what accepted changes of its kind keep. -/
theorem keeps_remove {kind : RelationshipKind} (hrel : RelationshipKeeps kind P)
    (word antecedent consequent : String) : Keeps P (remove kind word antecedent consequent) := by
  refine (keeps_read _ _ _).bind fun found => ?_
  cases found with
  | none => exact keeps_throw _
  | some r => exact (keeps_setRelationshipStatus hrel _ _ _).bind fun _ => keeps_pure _

/-- Taking a relationship out of force leads where rejecting the record leads. -/
theorem leads_remove {Q : Contents → Prop} {kind : RelationshipKind}
    {word antecedent consequent : String}
    (h : ∀ c r f, P c → r ∈ c.relationships kind → r.antecedent = antecedent →
      r.consequent = consequent → r.status = .active → Relationship.Settles .rejected f →
      Q (c.mapRelationships kind (·.id = r.id) f)) :
    Leads P (remove kind word antecedent consequent) fun _ => Q := by
  refine (leads_read _ _ _).bind fun found => ?_
  cases found with
  | none => exact leads_throw _
  | some r =>
    refine Leads.bind (Q := fun _ => Q) (leads_setRelationshipStatus rfl ?_) fun _ =>
      leads_pure (Q := fun _ => Q) 0
    rintro c f ⟨hc, hfound⟩ hf
    obtain ⟨hr, hantecedent, hconsequent, hactive⟩ := Contents.mem_of_findRelationship? hfound.symm
    exact h c r f hc hr hantecedent hconsequent (Status.eq_active_of_name hactive) hf

/-- Giving a tag another category keeps what work on tags keeps. -/
theorem keeps_changeCategory (htags : TaggingKeeps P) (name category : String) :
    Keeps P (u.changeCategory name category) := by
  refine (keeps_lift _).bind fun code => (keeps_read _ _ _).bind fun found => ?_
  cases found with
  | none => exact keeps_throw _
  | some tag => exact (htags.setTagCategory _ _).bind fun _ => keeps_pure _

/-- A command that has no job keeps what work on tags and on relationships keeps, if no page
matters. -/
theorem keeps_applyCommand (htags : TaggingKeeps P) (hrel : ∀ kind, RelationshipKeeps kind P)
    (hpages : Contents.IgnoresPages P) {c : Command} (hjob : jobOf? viewer c = none) :
    Keeps P (u.applyCommand viewer number c) := by
  cases c with
  | createAlias a c =>
    exact (keeps_createAlias (hrel _) _ _ _ _ _ _).bind fun r =>
      keeps_approveAlias htags (hrel _) (hrel _) hpages _ _ _
  | createImplication a c =>
    exact (keeps_createImplication (hrel _) _ _ _ _ _).bind fun r =>
      keeps_approveImplication htags (hrel _) _ _
  | removeAlias a c => exact keeps_remove (hrel _) _ _ _
  | removeImplication a c => exact keeps_remove (hrel _) _ _ _
  | massUpdate query replacement => cases hjob
  | changeCategory tag category => exact keeps_changeCategory htags _ _

/-- A command with a job only puts it off. -/
theorem runOn_massUpdate {s : Store} (hopen : s.isOpen number = true) (query replacement : String) :
    (u.applyCommand viewer number (.massUpdate query replacement)).runOn s =
      (.ok 0, s.deferring [⟨query, replacement, viewer.userId, viewer.userName⟩]) := by
  rcases htransaction : s.transaction with _ | t
  · simp [isOpen, htransaction] at hopen
  · have hnumber : t.number = number := by simpa [isOpen, htransaction] using hopen
    rw [applyCommand, Work.afterCommit, runOn_bind_of_ok (runOn_modify _ s)]
    simp only [htransaction, if_pos hnumber, deferring]
    rfl

/-- A command with a job changes no contents. -/
theorem leads_massUpdate (query replacement : String) :
    Leads P (u.applyCommand viewer number (.massUpdate query replacement)) fun _ => P := by
  refine Leads.bind (Q := fun _ => P) (fun s a t _ hs hrun => ?_) fun _ => (keeps_pure _).leads
  rw [Work.afterCommit, runOn_modify] at hrun
  obtain ⟨-, rfl⟩ := Prod.mk.inj hrun
  split
  · split
    · exact hs
    · exact hs
  · exact hs

/-- A command leads from what work on tags and on relationships keeps back to it, if no page
matters. -/
theorem leads_applyCommand (htags : TaggingKeeps P) (hrel : ∀ kind, RelationshipKeeps kind P)
    (hpages : Contents.IgnoresPages P) (c : Command) :
    Leads P (u.applyCommand viewer number c) fun _ => P := by
  cases c with
  | massUpdate query replacement => exact leads_massUpdate query replacement
  | createAlias a c | createImplication a c | removeAlias a c | removeImplication a c
  | changeCategory a c => exact (keeps_applyCommand htags hrel hpages rfl).leads

/-- A command keeps, of all contents that can come back, what work on tags and on relationships keeps, if no
page matters. -/
theorem preserves_applyCommand (htags : TaggingKeeps P) (hrel : ∀ kind, RelationshipKeeps kind P)
    (hpages : Contents.IgnoresPages P) (c : Command) :
    Preserves (Store.Everywhere P) (u.applyCommand viewer number c) := by
  cases c with
  | massUpdate query replacement =>
    exact (preserves_afterCommit _ _).bind fun _ => (keeps_pure _).preserves
  | createAlias a c | createImplication a c | removeAlias a c | removeImplication a c
  | changeCategory a c => exact (keeps_applyCommand htags hrel hpages rfl).preserves

/-- Apart from the contents, a command that succeeds only puts its job off. -/
theorem setting_of_applyCommand {c : Command} {s t : Store} {n : Int}
    (hopen : s.isOpen number = true)
    (hrun : (u.applyCommand viewer number c).runOn s = (.ok n, t)) :
    t.setting = (s.deferring (jobOf? viewer c).toList).setting := by
  have hframe (hjob : jobOf? viewer c = none) : t.setting = s.setting := by
    have hkeeps : Keeps (fun _ => True) (u.applyCommand viewer number c) :=
      keeps_applyCommand taggingKeeps_trivially
        (fun _ => relationshipKeeps_of_ignores fun _ _ h => h) (fun _ _ _ h => h) hjob
    exact hkeeps.setting_of_runOn hrun
  cases c with
  | massUpdate query replacement =>
    rw [runOn_massUpdate hopen] at hrun
    obtain ⟨-, rfl⟩ := Prod.mk.inj hrun
    rfl
  | createAlias a c | createImplication a c | removeAlias a c | removeImplication a c
  | changeCategory a c =>
    simpa only [jobOf?, Option.toList_none, deferring_nil] using hframe rfl

/-- A command that fails has changed nothing but the contents. -/
theorem setting_of_applyCommand_error {c : Command} {s t : Store} {e : Failure}
    (hopen : s.isOpen number = true)
    (hrun : (u.applyCommand viewer number c).runOn s = (.error e, t)) : t.setting = s.setting := by
  cases hjob : jobOf? viewer c with
  | some job =>
    cases c with
    | massUpdate query replacement =>
      rw [runOn_massUpdate hopen] at hrun
      cases congrArg Prod.fst hrun
    | createAlias a c | createImplication a c | removeAlias a c | removeImplication a c
    | changeCategory a c => cases hjob
  | none =>
    have hkeeps : Keeps (fun _ => True) (u.applyCommand viewer number c) :=
      keeps_applyCommand taggingKeeps_trivially
        (fun _ => relationshipKeeps_of_ignores fun _ _ h => h) (fun _ _ _ h => h) hjob
    exact hkeeps.setting_of_runOn hrun

/-! ## Scripts -/

/-- The first command is applied and then, unless it failed, the others. -/
theorem runOn_applyEach_cons (u : Update) (viewer : Viewer) (number : Nat) (done : List Mutation)
    (c : NumberedCommand) (rest : List NumberedCommand) (s : Store) :
    (u.applyEach viewer number done (c :: rest)).runOn s =
      match (u.applyCommand viewer number c.command).runOn s with
      | (.ok n, m) => (u.applyEach viewer number (done ++ [⟨c, n⟩]) rest).runOn m
      | (.error e, m) =>
        match reported? c e with
        | some cause => (.ok (.failure cause (some c)), m)
        | none => (.error e, m) := by
  rw [applyEach, runOn_bind, runOn_ofRun]
  rcases (u.applyCommand viewer number c.command).runOn s with ⟨e | n, m⟩
  · dsimp only
    cases reported? c e with
    | none => rfl
    | some cause => rfl
  · rfl

/-- Commands that succeed one after the other are all applied. -/
theorem Applied.runOn_applyEach {cs : List NumberedCommand} {ms : List Mutation} {s t : Store}
    (h : Applied u viewer number cs s ms t) (done : List Mutation) :
    (u.applyEach viewer number done cs).runOn s = (.ok (.success (done ++ ms)), t) := by
  induction h generalizing done with
  | nil s =>
    rw [List.append_nil]
    rfl
  | cons hfirst _ ih =>
    rw [runOn_applyEach_cons, hfirst]
    dsimp only
    rw [ih, List.append_assoc, List.singleton_append]

/-- Either all commands succeed, or one fails after all those before it have succeeded. -/
theorem applied_or_fails (u : Update) (viewer : Viewer) (number : Nat) (cs : List NumberedCommand)
    (s : Store) :
    (∃ ms t, Applied u viewer number cs s ms t) ∨
      ∃ before c after ms m e t, cs = before ++ c :: after ∧
        Applied u viewer number before s ms m ∧
        (u.applyCommand viewer number c.command).runOn m = (.error e, t) := by
  induction cs generalizing s with
  | nil => exact Or.inl ⟨[], s, .nil s⟩
  | cons c rest ih =>
    rcases hfirst : (u.applyCommand viewer number c.command).runOn s with ⟨e | n, m⟩
    · exact Or.inr ⟨[], c, rest, [], s, e, m, rfl, .nil s, hfirst⟩
    · rcases ih m with ⟨ms, t, hrest⟩ | ⟨before, d, after, ms, v, e, t, rfl, hbefore, hfails⟩
      · exact Or.inl ⟨_, t, .cons hfirst hrest⟩
      · exact Or.inr ⟨c :: before, d, after, _, v, e, t, rfl, .cons hfirst hbefore, hfails⟩

/-- A script whose commands succeed up to one that fails ends with the failure of that one. -/
theorem Applied.runOn_applyEach_error {before after : List NumberedCommand} {c : NumberedCommand}
    {ms : List Mutation} {s m t : Store} {e : Failure} (h : Applied u viewer number before s ms m)
    (hfails : (u.applyCommand viewer number c.command).runOn m = (.error e, t))
    (done : List Mutation) :
    (u.applyEach viewer number done (before ++ c :: after)).runOn s =
      match reported? c e with
      | some cause => (.ok (.failure cause (some c)), t)
      | none => (.error e, t) := by
  induction h generalizing done with
  | nil s =>
    rw [List.nil_append, runOn_applyEach_cons, hfails]
  | cons hfirst _ ih =>
    rw [List.cons_append, runOn_applyEach_cons, hfirst]
    exact ih hfails _

/-- Commands are applied one after the other exactly if the first ones and then the others are. -/
theorem applied_append_iff {cs ds : List NumberedCommand} {ms : List Mutation} {s t : Store} :
    Applied u viewer number (cs ++ ds) s ms t ↔
      ∃ ms₁ m ms₂, Applied u viewer number cs s ms₁ m ∧ Applied u viewer number ds m ms₂ t ∧
        ms = ms₁ ++ ms₂ := by
  induction cs generalizing s ms with
  | nil =>
    constructor
    · exact fun h => ⟨[], s, ms, .nil s, h, rfl⟩
    · rintro ⟨_, _, ms₂, ⟨⟩, h, rfl⟩
      exact h
  | cons c rest ih =>
    constructor
    · rintro (_ | ⟨hfirst, hrest⟩)
      obtain ⟨ms₁, m, ms₂, hbefore, hafter, rfl⟩ := ih.1 hrest
      exact ⟨_, m, ms₂, .cons hfirst hbefore, hafter, rfl⟩
    · rintro ⟨_, m, ms₂, (_ | ⟨hfirst, hrest⟩), hafter, rfl⟩
      exact .cons hfirst (ih.2 ⟨_, m, ms₂, hrest, hafter, rfl⟩)

/-- There is one change for each command, in the same order. -/
theorem Applied.commands_eq {cs : List NumberedCommand} {ms : List Mutation} {s t : Store}
    (h : Applied u viewer number cs s ms t) : ms.map (·.command) = cs := by
  induction h with
  | nil => rfl
  | cons _ _ ih => rw [List.map_cons, ih]

/-- Apart from the contents, commands that succeed only put their jobs off. -/
theorem Applied.setting {cs : List NumberedCommand} {ms : List Mutation} {s t : Store}
    (h : Applied u viewer number cs s ms t) (hopen : s.isOpen number = true) :
    t.setting = (s.deferring (jobsOf viewer cs)).setting := by
  induction h with
  | nil s =>
    rw [show jobsOf viewer [] = [] from rfl, deferring_nil]
  | @cons c rest s m t n ms hfirst _ ih =>
    have hm := setting_of_applyCommand hopen hfirst
    have hjobs : jobsOf viewer (c :: rest) = (jobOf? viewer c.command).toList ++ jobsOf viewer rest := by
      rw [jobsOf, List.filterMap_cons]
      cases jobOf? viewer c.command <;> rfl
    rw [ih ((isOpen_of_setting hm number).trans ((isOpen_deferring _ _ _).trans hopen)), hjobs,
      ← deferring_deferring]
    exact setting_deferring hm _

/-- Commands that each lead from a property back to it do so together. -/
theorem Applied.keeps {cs : List NumberedCommand} {ms : List Mutation} {s t : Store}
    (h : Applied u viewer number cs s ms t)
    (hkeeps : ∀ c ∈ cs, Leads P (u.applyCommand viewer number c.command) fun _ => P)
    (hs : P s.contents) : P t.contents := by
  induction h with
  | nil => exact hs
  | @cons c rest s m t n ms hfirst _ ih =>
    have hm := hkeeps c List.mem_cons_self s n m hs hfirst
    exact ih (fun d hd => hkeeps d (List.mem_cons_of_mem _ hd)) hm

end Update

end Bulk

end Imageboard
