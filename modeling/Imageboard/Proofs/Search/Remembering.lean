import Imageboard.Proofs.Operations
import Imageboard.Proofs.Relationship.Generations
import Imageboard.Proofs.Search.Resolving

/-!
# What is remembered while a store changes

A searcher goes on remembering what names stand for while aliases change, scripts are applied and
blocks and transactions are opened, kept and taken back. Whatever leaves a store that follows the one
before it leaves a memory that was right still right. The one thing that can make it wrong is a block
that is taken back after a name was looked up in it: the main statement is that all answers are right
at all times exactly if no such block changes what a remembered name stands for.
-/

namespace Imageboard

open Store Work

namespace Searcher

/-- Something that is done to the store of a searcher, or that the searcher does. -/
inductive Step where
  | operation (op : Operation)
  | insertRelationship (kind : RelationshipKind) (antecedent consequent status : String)
      (forumTopicId creatorId : Option Int)
  | setRelationshipStatus (kind : RelationshipKind) (id : Int) (status : String)
      (approverId : Option Int)
  | retargetAliases (oldName newName : String)
  | moveImplications (oldName newName : String)
  | createAlias (antecedent consequent : String) (config : Config)
      (forumTopicId creatorId : Option Int) (skipSecondary : Bool)
  | createImplication (antecedent consequent : String) (forumTopicId creatorId : Option Int)
      (skipSecondary : Bool)
  | reject (kind : RelationshipKind) (r : Relationship)
  | lookUp (name : String)

/-- The searcher after some work on the store that is not its own. -/
def afterWork {α : Type} (s : Searcher) (w : Work α) : Searcher :=
  { s with store := (w.runOn s.store).2 }

/-- The searcher after a step, whether that succeeded or failed. -/
def after (s : Searcher) : Step → Searcher
  | .operation op => { s with store := op.after s.store .absent }
  | .insertRelationship kind antecedent consequent status forumTopicId creatorId =>
    s.afterWork
      (Store.insertRelationship kind antecedent consequent status forumTopicId creatorId)
  | .setRelationshipStatus kind id status approverId =>
    s.afterWork (Store.setRelationshipStatus kind id status approverId)
  | .retargetAliases oldName newName => s.afterWork (Store.retargetAliases oldName newName)
  | .moveImplications oldName newName => s.afterWork (Store.moveImplications oldName newName)
  | .createAlias antecedent consequent config forumTopicId creatorId skipSecondary =>
    s.afterWork (Relationship.createAlias antecedent consequent config forumTopicId creatorId
      skipSecondary)
  | .createImplication antecedent consequent forumTopicId creatorId skipSecondary =>
    s.afterWork (Relationship.createImplication antecedent consequent forumTopicId creatorId
      skipSecondary)
  | .reject kind r => s.afterWork (Relationship.reject kind r)
  | .lookUp name => ((resolve name).runOn s).2

/-- The states that a searcher goes through under some steps, from the first to the last. -/
def states (s : Searcher) : List Step → List Searcher
  | [] => [s]
  | step :: rest => s :: states (s.after step) rest

/-- A searcher would answer now for each name what it stands for now. -/
def AnswersRight (s : Searcher) : Prop :=
  ∀ name, ((resolve name).runOn s).1 = .ok (s.store.contents.standsFor name)

/-- A step is not the taking back of a block that changes what a remembered name stands for. -/
def Harmless (s : Searcher) : Step → Prop
  | .operation (.abortBlock number) => ∀ name target,
    s.refreshed.aliases.find? name = some target →
      (s.after (.operation (.abortBlock number))).store.contents.standsFor name =
        s.store.contents.standsFor name
  | _ => True

/-- Each of some steps is harmless when it is taken. -/
def AllHarmless (s : Searcher) : List Step → Prop
  | [] => True
  | step :: rest => s.Harmless step ∧ (s.after step).AllHarmless rest

/-- What always holds of a searcher: the aliases can be read, now and whatever comes back, and
nothing is remembered of alias generations that are still to come. -/
structure InStep (s : Searcher) : Prop where
  readable : s.store.Everywhere fun c => c.has .aliases
  notAhead : s.aliases.generation ≤ s.store.aliasGeneration

/-! ## A store that follows -/

/-- What names stand for is a matter of the aliases alone. -/
theorem standsFor_congr {c d : Contents} (h : c.aliases = d.aliases) (name : String) :
    c.standsFor name = d.standsFor name := by
  simp only [Contents.standsFor, Contents.aliasOf?, h]

/-- A memory that is right is still right of a store that follows. -/
theorem Faithful.of_follows {s : Searcher} {t : Store} (h : s.Faithful)
    (hahead : s.aliases.generation ≤ s.store.aliasGeneration) (hfollows : s.store.Follows t) :
    Faithful { s with store := t } := by
  have hbehind : s.store.aliasGeneration ≤ t.aliasGeneration := hfollows.notBehind
  intro name target hfound
  simp only [Searcher.refreshed] at hfound
  by_cases hsame : t.aliasGeneration = s.store.aliasGeneration
  · rw [hsame] at hfound
    rw [h name target hfound]
    exact (standsFor_congr (hfollows.aliases hsame) name).symm
  · have hold : s.aliases.generation ≠ t.aliasGeneration := by omega
    rw [AliasCache.current, if_neg hold] at hfound
    cases hfound

/-- Going back within an alias generation leaves a right memory right exactly if no remembered name
stands for something else then. -/
theorem Faithful.iff_of_generation_eq {s : Searcher} {t : Store} (h : s.Faithful)
    (hgeneration : t.aliasGeneration = s.store.aliasGeneration) :
    Faithful { s with store := t } ↔ ∀ name target, s.refreshed.aliases.find? name = some target →
      t.contents.standsFor name = s.store.contents.standsFor name := by
  have hmemory : Searcher.refreshed { s with store := t } = { s.refreshed with store := t } := by
    simp only [Searcher.refreshed, hgeneration]
  simp only [Faithful, hmemory]
  constructor
  · intro hafter name target hfound
    rw [← hafter name target hfound, h name target hfound]
  · intro hunchanged name target hfound
    rw [hunchanged name target hfound, h name target hfound]

/-- A searcher whose memory is right is one who answers right. -/
theorem InStep.answersRight_iff {s : Searcher} (h : s.InStep) : s.AnswersRight ↔ s.Faithful := by
  constructor
  · intro hright name target hfound
    have hanswer := hright name
    rw [runOn_resolve h.readable.contents, hfound] at hanswer
    exact Except.ok.inj hanswer
  · intro hfaithful name
    obtain ⟨t, hrun, -, -⟩ := hfaithful.runOn_resolve h.readable.contents name
    rw [hrun]

/-! ## Steps -/

/-- A store follows when the tags of posts are changed by a job. -/
theorem follows_retag (changes : Bulk.TagChanges) (postIds : List Int) :
    Along Follows (Bulk.retag changes postIds) := by
  induction postIds with
  | nil => exact along_pure _
  | cons postId rest ih =>
    exact (follows_removePostTags _ _).bind fun _ => (follows_addPostTags _ _).bind fun _ => ih

/-- A store follows under each operation but the taking back of a block. -/
theorem follows_operation (s : Store) (op : Operation) (h : ∀ number, op ≠ .abortBlock number) :
    s.Follows (op.after s .absent) := by
  cases op with
  | createPost draft names => exact follows_createPost draft names s
  | addPostTags postId names => exact follows_addPostTags postId names s
  | removePostTags postId names => exact follows_removePostTags postId names s
  | replaceTagOnPosts oldName newName => exact follows_replaceTagOnPosts oldName newName s
  | addTagsToPostsWith antecedent names => exact follows_addTagsToPostsWith antecedent names s
  | findOrCreateTag name category => exact follows_findOrCreateTag name category s
  | approveAlias r approverId withPages =>
    exact Relationship.follows_approveAlias r approverId withPages s
  | approveImplication r approverId => exact Relationship.follows_approveImplication r approverId s
  | processScript u viewer => exact Bulk.Update.follows_process u viewer s
  | performJob config job aliases counts =>
    have hperform : SearchWork.Preserves s.Follows (Bulk.perform config job) := by
      refine (reads_compile _ _ _).preserves.bind fun plan =>
        (Bulk.reads_tagChanges config job).preserves.bind fun changes =>
          SearchWork.preserves_ofWork fun t ht => Along.of_related ?_ ht
      exact follows_inTransaction fun _ => (Search.reads_selectPostIds plan none 0).along.bind
        fun ids => (follows_retag changes ids).bind fun _ => along_pure _
    exact hperform ⟨s, aliases, counts⟩ (.refl s)
  | importRows rows => exact follows_inTransaction (fun _ => Fixture.follows_importEach rows) s
  | regeneratePostCounts => exact follows_regeneratePostCounts s
  | openBlock => exact .of_eq rfl rfl
  | closeBlock number =>
    change s.Follows ((s.release number).toOption.getD s)
    cases hrelease : s.release number with
    | error e => exact .refl s
    | ok t => exact follows_release hrelease
  | abortBlock number => exact absurd rfl (h number)
  | begin => exact follows_begin s
  | commit number => exact follows_commit number s
  | rollback number => exact follows_rollback number s
  | meanwhile clock heldElsewhere commitsFail => exact .of_eq rfl rfl

/-- Looking a name up keeps a searcher in step and a right memory right. -/
theorem InStep.after_lookUp {s : Searcher} (h : s.InStep) (name : String) :
    (s.after (.lookUp name)).InStep ∧ (s.Faithful → (s.after (.lookUp name)).Faithful) := by
  have hgeneration := AliasCache.generation_current s.aliases s.store.aliasGeneration
  constructor
  · have hstore : (s.after (.lookUp name)).store = s.store := reads_resolve name s
    refine ⟨hstore ▸ h.readable, ?_⟩
    rw [hstore]
    simp only [after, runOn_resolve h.readable.contents]
    cases s.refreshed.aliases.find? name <;> exact Nat.le_of_eq hgeneration
  · intro hfaithful
    obtain ⟨t, hrun, -, ht⟩ := hfaithful.runOn_resolve h.readable.contents name
    simp only [after, hrun]
    exact ht

/-- Work that follows and keeps the table of aliases keeps a searcher in step and a right memory
right. -/
theorem InStep.afterWork {α : Type} {s : Searcher} (h : s.InStep) {w : Work α}
    (hfollows : Along Follows w) (hkeeps : Keeps (fun c => c.has .aliases) w) :
    (s.afterWork w).InStep ∧ (s.Faithful → (s.afterWork w).Faithful) :=
  ⟨⟨hkeeps.preserves _ h.readable, Nat.le_trans h.notAhead (hfollows s.store).notBehind⟩,
    fun hfaithful => hfaithful.of_follows h.notAhead (hfollows s.store)⟩

/-- Work on posts and tags keeps each table. -/
theorem taggingKeeps_has (t : Table) : TaggingKeeps fun c => c.has t :=
  taggingKeeps_of_ignores fun _ _ _ _ _ hc => hc

/-- Changes of the tags of a single post keep each table. -/
theorem singlePostsKeep_has (t : Table) : SinglePostsKeep fun c => c.has t :=
  singlePostsKeep_of_ignores fun _ _ _ _ _ hc => hc

/-- Work on relationships keeps each table. -/
theorem relationshipKeeps_has (kind : RelationshipKind) (t : Table) :
    RelationshipKeeps kind fun c => c.has t :=
  relationshipKeeps_of_ignores fun _ _ hc => by cases kind <;> exact hc

/-- A searcher stays in step under each operation. -/
theorem InStep.after_operation {s : Searcher} (h : s.InStep) (op : Operation) :
    (s.after (.operation op)).InStep where
  readable :=
    Operation.everywhere_after (taggingKeeps_has _) (fun kind => relationshipKeeps_has kind _)
      (fun _ _ _ hc => hc) (fun _ hc => hc) h.readable op
      (Operation.contents_after_of_singlePosts (singlePostsKeep_has .aliases) h.readable.contents)
  notAhead := by
    refine Nat.le_trans h.notAhead ?_
    by_cases habort : ∃ number, op = .abortBlock number
    · obtain ⟨number, rfl⟩ := habort
      change _ ≤ ((s.store.undo number).toOption.getD s.store).aliasGeneration
      cases hundo : s.store.undo number with
      | error e => exact Nat.le_refl _
      | ok t => exact Nat.le_of_eq (aliasGeneration_undo hundo).symm
    · exact (follows_operation s.store op fun number heq => habort ⟨number, heq⟩).notBehind

/-- A searcher stays in step under each step, and a right memory stays right exactly if the step is
harmless. -/
theorem InStep.after {s : Searcher} (h : s.InStep) (step : Step) :
    (s.after step).InStep ∧ (s.Faithful → ((s.after step).Faithful ↔ s.Harmless step)) := by
  have hfree {t : Searcher} (ht : t.InStep ∧ (s.Faithful → t.Faithful)) :
      t.InStep ∧ (s.Faithful → (t.Faithful ↔ True)) :=
    ⟨ht.1, fun hs => iff_of_true (ht.2 hs) trivial⟩
  cases step with
  | operation op =>
    refine ⟨h.after_operation op, fun hfaithful => ?_⟩
    by_cases habort : ∃ number, op = .abortBlock number
    · obtain ⟨number, rfl⟩ := habort
      refine hfaithful.iff_of_generation_eq ?_
      change ((s.store.undo number).toOption.getD s.store).aliasGeneration = _
      cases hundo : s.store.undo number with
      | error e => rfl
      | ok t => exact aliasGeneration_undo hundo
    · have hfollows := follows_operation s.store op fun number heq => habort ⟨number, heq⟩
      have hharmless : s.Harmless (.operation op) := by
        cases op
        case abortBlock number => exact absurd ⟨number, rfl⟩ habort
        all_goals trivial
      exact iff_of_true (hfaithful.of_follows h.notAhead hfollows) hharmless
  | insertRelationship kind antecedent consequent status forumTopicId creatorId =>
    exact hfree (h.afterWork (follows_insertRelationship _ _ _ _ _ _)
      (keeps_insertRelationship (relationshipKeeps_has _ _) _ _ _ _ _))
  | setRelationshipStatus kind id status approverId =>
    exact hfree (h.afterWork (follows_setRelationshipStatus _ _ _ _)
      (keeps_setRelationshipStatus (relationshipKeeps_has _ _) _ _ _))
  | retargetAliases oldName newName =>
    exact hfree (h.afterWork (follows_retargetAliases _ _)
      (keeps_retargetAliases (relationshipKeeps_has _ _) _ _))
  | moveImplications oldName newName =>
    exact hfree (h.afterWork (follows_moveImplications _ _)
      (keeps_moveImplications (relationshipKeeps_has _ _) _ _))
  | createAlias antecedent consequent config forumTopicId creatorId skipSecondary =>
    exact hfree (h.afterWork (Relationship.follows_createAlias _ _ _ _ _ _)
      (Relationship.keeps_createAlias (relationshipKeeps_has _ _) _ _ _ _ _ _))
  | createImplication antecedent consequent forumTopicId creatorId skipSecondary =>
    exact hfree (h.afterWork (Relationship.follows_createImplication _ _ _ _ _)
      (Relationship.keeps_createImplication (relationshipKeeps_has _ _) _ _ _ _ _))
  | reject kind r =>
    exact hfree (h.afterWork (follows_setRelationshipStatus _ _ _ _)
      (keeps_setRelationshipStatus (relationshipKeeps_has _ _) _ _ _))
  | lookUp name => exact hfree (h.after_lookUp name)

/-! ## Runs -/

/-- The memory of a searcher in step is right throughout a run exactly if it is at the start and all
steps are harmless. -/
theorem InStep.faithful_states_iff {s : Searcher} (h : s.InStep) (steps : List Step) :
    (∀ t ∈ s.states steps, t.Faithful) ↔ s.Faithful ∧ s.AllHarmless steps := by
  induction steps generalizing s with
  | nil => simp [states, AllHarmless]
  | cons step rest ih =>
    obtain ⟨hafter, hstep⟩ := h.after step
    rw [states, List.forall_mem_cons, ih hafter, AllHarmless]
    constructor
    · rintro ⟨hs, hnext, hrest⟩
      exact ⟨hs, (hstep hs).1 hnext, hrest⟩
    · rintro ⟨hs, hharmless, hrest⟩
      exact ⟨hs, (hstep hs).2 hharmless, hrest⟩

/-- A searcher stays in step throughout a run. -/
theorem InStep.of_mem_states {s t : Searcher} (h : s.InStep) {steps : List Step}
    (ht : t ∈ s.states steps) : t.InStep := by
  induction steps generalizing s with
  | nil =>
    obtain rfl := List.mem_singleton.1 ht
    exact h
  | cons step rest ih =>
    rcases List.mem_cons.1 ht with rfl | ht
    · exact h
    · exact ih (h.after step).1 ht

/-- A searcher who starts with nothing remembered answers right at all times of a run, whatever is
done to the store, exactly if no block is taken back in such a way that a name which is remembered of
the present alias generation stands for something else afterwards. -/
theorem answersRight_states_iff (s : Store) (counts : CountCache) (steps : List Step)
    (htable : s.Everywhere fun c => c.has .aliases) :
    (∀ t ∈ states ⟨s, .fresh s, counts⟩ steps, t.AnswersRight) ↔
      AllHarmless ⟨s, .fresh s, counts⟩ steps := by
  have hstart : InStep ⟨s, .fresh s, counts⟩ := ⟨htable, Nat.le_refl _⟩
  calc (∀ t ∈ states ⟨s, .fresh s, counts⟩ steps, t.AnswersRight)
      ↔ ∀ t ∈ states ⟨s, .fresh s, counts⟩ steps, t.Faithful :=
        forall₂_congr fun _ ht => (hstart.of_mem_states ht).answersRight_iff
    _ ↔ Faithful ⟨s, .fresh s, counts⟩ ∧ AllHarmless ⟨s, .fresh s, counts⟩ steps :=
        hstart.faithful_states_iff steps
    _ ↔ AllHarmless ⟨s, .fresh s, counts⟩ steps :=
        and_iff_right (faithful_fresh s counts)

/-- A searcher of an empty store who remembers nothing. -/
def newcomer : Searcher :=
  let s := Store.ofContents .empty ⟨0, 0⟩ .standard
  ⟨s, .fresh s, ⟨.broken, 0⟩⟩

/-- Nothing was looked up in a block that put an alias in force and is taken back, so all answers are
right. -/
theorem answersRight_states_newcomer :
    let steps : List Step := [.operation .openBlock,
      .insertRelationship .alias "kitten" "cat" "active" none none, .operation (.abortBlock 1),
      .lookUp "kitten"]
    (newcomer.store.Everywhere fun c => c.has .aliases) ∧
      ∀ t ∈ newcomer.states steps, t.AnswersRight := by
  have htable : newcomer.store.Everywhere fun c => c.has .aliases := everywhere_of_closed rfl rfl rfl
  refine ⟨htable, (answersRight_states_iff newcomer.store ⟨.broken, 0⟩ _ htable).2 ?_⟩
  refine ⟨trivial, ⟨trivial, ⟨fun name target hfound => ?_, ⟨trivial, trivial⟩⟩⟩⟩
  cases hfound

/-- A name that was looked up in a block which put an alias of it in force is still answered by that
alias when the block has been taken back and there is no alias. -/
theorem exists_stale_answer :
    let steps : List Step := [.operation .openBlock,
      .insertRelationship .alias "kitten" "cat" "active" none none, .lookUp "kitten",
      .operation (.abortBlock 1)]
    ∃ t ∈ newcomer.states steps, t.store.contents = .empty ∧
      ((resolve "kitten").runOn t).1 = .ok "cat" ∧
      t.store.contents.standsFor "kitten" = "kitten" := by
  refine ⟨_, List.mem_cons_of_mem _ (List.mem_cons_of_mem _ (List.mem_cons_of_mem _
    (List.mem_cons_of_mem _ List.mem_cons_self))), ?_, ?_, ?_⟩ <;> rfl

end Searcher

end Imageboard
