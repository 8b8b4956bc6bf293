import Imageboard.Bulk.Update
import Imageboard.Proofs.Relationship.Keeping
import Imageboard.Proofs.Tagging.Generations

/-!
# Alias generations and relationships

Each change of an alias moves the store to a later alias generation, and work on implications and
pages leaves the aliases alone. So a store follows the one before any work on relationships, and so
it does when a script is applied in a transaction of its own.
-/

namespace Imageboard

open Work

namespace Store

/-- Work on implications keeps the aliases. -/
theorem implicationKeeps_aliases (rs : List Relationship) :
    RelationshipKeeps .implication fun c => c.aliases = rs :=
  relationshipKeeps_of_ignores fun _ _ hc => hc

/-- Moving to another alias generation is not behind. -/
theorem notBehind_bumpAliasesFor (kind : RelationshipKind) :
    Along NotBehind (bumpAliasesFor kind) := by
  rcases kind with _ | _
  · exact fun s => Nat.le_succ s.aliasGeneration
  · exact along_pure _

/-- A store follows when a relationship is added. -/
theorem follows_insertRelationship (kind : RelationshipKind) (antecedent consequent status : String)
    (forumTopicId creatorId : Option Int) :
    Along Follows (insertRelationship kind antecedent consequent status forumTopicId creatorId) := by
  rcases kind with _ | _
  · exact along_get.bind fun _ => follows_write_bind fun _ t => Nat.lt_succ_self t.aliasGeneration
  · refine Along.follows ?_ fun rs => keeps_insertRelationship (implicationKeeps_aliases rs) _ _ _ _ _
    exact along_get.bind fun _ => (notBehind_write _ _ _).bind fun r =>
      (notBehind_bumpAliasesFor _).bind fun _ => along_pure r

/-- A store follows when a relationship is given another status. -/
theorem follows_setRelationshipStatus (kind : RelationshipKind) (id : Int) (status : String)
    (approverId : Option Int) : Along Follows (setRelationshipStatus kind id status approverId) := by
  rcases kind with _ | _
  · exact along_get.bind fun _ => follows_write_bind fun _ t => Nat.lt_succ_self t.aliasGeneration
  · refine Along.follows ?_ fun rs => keeps_setRelationshipStatus (implicationKeeps_aliases rs) _ _ _
    exact along_get.bind fun _ => (notBehind_write _ _ _).bind fun _ => notBehind_bumpAliasesFor _

/-- A store follows when aliases are retargeted. -/
theorem follows_retargetAliases (oldName newName : String) :
    Along Follows (retargetAliases oldName newName) :=
  along_get.bind fun _ => follows_write_bind fun _ t => Nat.lt_succ_self t.aliasGeneration

/-- A store follows when some implications are moved. -/
theorem follows_moveEach (oldName newName : String) (rs : List Relationship) :
    Along Follows (moveEach oldName newName rs) := by
  induction rs with
  | nil => exact along_pure _
  | cons r rest ih =>
    refine Along.ite ih ((along_read _ _ _).bind fun twin => Along.ite ?_ ?_)
    · exact (follows_setRelationshipStatus _ _ _ _).bind fun _ => ih
    · refine along_get.bind fun s => Along.bind ?_ fun _ => ih.bind fun _ => along_pure _
      exact (notBehind_write _ _ _).follows fun rs => keeps_write fun c n d hc hd =>
        (implicationKeeps_aliases rs).edit hc hd fun _ => rfl

/-- A store follows when implications are moved. -/
theorem follows_moveImplications (oldName newName : String) :
    Along Follows (moveImplications oldName newName) :=
  (along_read _ _ _).bind fun rs => follows_moveEach oldName newName rs

end Store

namespace Relationship

open Store

/-- Renaming a page is not behind if the work on its table is not. -/
theorem notBehind_renameIfFree {pageExists : String → Work Bool}
    {rename : String → String → Work Bool} (hexists : ∀ name, Along NotBehind (pageExists name))
    (hrename : ∀ old new, Along NotBehind (rename old new)) (oldName newName : String) :
    Along NotBehind (renameIfFree pageExists rename oldName newName) :=
  (hexists oldName).bind fun _ => Along.ite
    ((hexists newName).bind fun _ => Along.ite (along_pure _) (hrename _ _)) (along_pure _)

/-- A store follows when the pages of a tag are renamed. -/
theorem follows_renamePages (oldName newName : String) :
    Along Follows (renamePages oldName newName) := by
  have hwiki (old new : String) : Along NotBehind (renameWikiPage old new) :=
    along_get.bind fun _ => notBehind_write _ _ _
  have hartist (old new : String) : Along NotBehind (renameArtist old new) :=
    along_get.bind fun _ => notBehind_write _ _ _
  refine Along.follows ?_ fun rs => keeps_renamePages (fun _ _ _ hc => hc) oldName newName
  exact (notBehind_renameIfFree (fun _ => along_read _ _ _) hwiki _ _).bind fun _ =>
    (notBehind_renameIfFree (fun _ => along_read _ _ _) hartist _ _).bind fun _ => along_pure _

/-- A store follows when an alias is created. -/
theorem follows_createAlias (antecedent consequent : String) (config : Config)
    (forumTopicId creatorId : Option Int) (skipSecondary : Bool) :
    Along Follows (createAlias antecedent consequent config forumTopicId creatorId skipSecondary) :=
  (reads_aliasErrors _ _ _ _).along.bind fun _ => (reads_refuseIfAny _ _).along.bind fun _ =>
    follows_insertRelationship _ _ _ _ _ _

/-- A store follows when an implication is created. -/
theorem follows_createImplication (antecedent consequent : String)
    (forumTopicId creatorId : Option Int) (skipSecondary : Bool) :
    Along Follows (createImplication antecedent consequent forumTopicId creatorId skipSecondary) :=
  (reads_implicationErrors _ _ _).along.bind fun _ => (reads_refuseIfAny _ _).along.bind fun _ =>
    follows_insertRelationship _ _ _ _ _ _

/-- A store follows when an alias is approved. -/
theorem follows_approveAlias (r : Relationship) (approverId : Option Int) (withPages : Bool) :
    Along Follows (approveAlias r approverId withPages) := by
  refine (follows_setRelationshipStatus _ _ _ _).bind fun _ =>
    (follows_findOrCreateTag _ _).bind fun antecedent => (follows_findOrCreateTag _ _).bind
      fun consequent => (follows_retargetAliases _ _).bind fun _ =>
        (follows_moveImplications _ _).bind fun _ => along_get.bind fun s => ?_
  have hrest : Along Follows (do
      let count ← replaceTagOnPosts r.antecedent r.consequent
      if withPages then
        let _ ← renamePages r.antecedent r.consequent
      return count) :=
    (follows_replaceTagOnPosts _ _).bind fun count =>
      Along.ite ((follows_renamePages _ _).bind fun _ => along_pure _) (along_pure _)
  exact Along.ite ((follows_setTagCategory _ _).bind fun _ => hrest) hrest

/-- A store follows when an implication is approved. -/
theorem follows_approveImplication (r : Relationship) (approverId : Option Int) :
    Along Follows (approveImplication r approverId) :=
  (follows_setRelationshipStatus _ _ _ _).bind fun _ => (follows_findOrCreateTag _ _).bind fun _ =>
    (follows_findOrCreateTag _ _).bind fun _ => reads_implicationGraph.along.bind fun _ =>
      follows_addTagsToPostsWith _ _

end Relationship

/-! ## Scripts -/

namespace Bulk.Update

open Store Relationship

variable (u : Update) (viewer : Viewer) (number : Nat)

/-- A store follows when a relationship is taken out of force by its names. -/
theorem follows_remove (kind : RelationshipKind) (word antecedent consequent : String) :
    Along Follows (remove kind word antecedent consequent) := by
  refine (along_read _ _ _).bind fun found => ?_
  cases found with
  | none => exact along_throw _
  | some r => exact (follows_setRelationshipStatus _ _ _ _).bind fun _ => along_pure _

/-- A store follows when a tag is given a category by its name. -/
theorem follows_changeCategory (name category : String) :
    Along Follows (u.changeCategory name category) := by
  refine (along_lift _).bind fun code => (along_read _ _ _).bind fun found => ?_
  cases found with
  | none => exact along_throw _
  | some tag => exact (follows_setTagCategory _ _).bind fun _ => along_pure _

/-- A store follows when a command is applied. -/
theorem follows_applyCommand (c : Command) : Along Follows (u.applyCommand viewer number c) := by
  cases c with
  | createAlias a c =>
    exact (follows_createAlias _ _ _ _ _ _).bind fun r => follows_approveAlias r _ _
  | createImplication a c =>
    exact (follows_createImplication _ _ _ _ _).bind fun r => follows_approveImplication r _
  | removeAlias a c => exact follows_remove _ _ _ _
  | removeImplication a c => exact follows_remove _ _ _ _
  | massUpdate query replacement => exact (follows_afterCommit _ _).bind fun _ => along_pure _
  | changeCategory tag category => exact follows_changeCategory u _ _

/-- A store follows when commands are applied one after the other. -/
theorem follows_applyEach (done : List Mutation) (cs : List NumberedCommand) :
    Along Follows (u.applyEach viewer number done cs) := by
  induction cs generalizing done with
  | nil => exact along_pure _
  | cons c rest ih =>
    refine Along.bind (fun s => ?_) fun applied => ?_
    · have hcommand := follows_applyCommand u viewer number c.command s
      rw [runOn_ofRun]
      rcases hrun : (u.applyCommand viewer number c.command).runOn s with ⟨e | n, t⟩
      · rw [hrun] at hcommand
        dsimp only
        split <;> exact hcommand
      · rwa [hrun] at hcommand
    · cases applied with
      | error cause => exact along_pure _
      | ok n => exact ih _

/-- A store follows when the transaction of a script is ended. -/
theorem follows_conclude (outcome : Outcome) : Along Follows (conclude number outcome) := by
  cases outcome with
  | success mutations =>
    intro s
    have hcommit := follows_commit number s
    rw [conclude, runOn_ofRun]
    rcases hrun : (commit number).runOn s with ⟨e | _, t⟩
    · rw [hrun] at hcommit
      cases e <;> exact hcommit
    · rwa [hrun] at hcommit
  | failure cause command => exact (follows_rollback _).bind fun _ => along_pure _

/-- A store follows when a script is processed, however that ends. -/
theorem follows_process : Along Follows (u.process viewer) := by
  rw [process]
  cases hread : u.commands with
  | error e => exact along_pure _
  | ok cs =>
    refine Along.bind (fun s => ?_) fun begun => ?_
    · have hbegin := follows_begin s
      rw [runOn_ofRun]
      rcases hrun : begin.runOn s with ⟨e | n, t⟩
      · rw [hrun] at hbegin
        cases e <;> exact hbegin
      · rwa [hrun] at hbegin
    · cases begun with
      | error e => exact along_pure _
      | ok number =>
        refine Along.bind (fun s => ?_) fun outcome => follows_conclude number outcome
        have happly : Along Follows (u.apply viewer number) :=
          (along_lift _).bind fun _ => follows_applyEach u viewer number _ _
        have hafter := happly s
        rw [runOn_ofRun]
        rcases hrun : (u.apply viewer number).runOn s with ⟨e | outcome, t⟩
        · rw [hrun] at hafter
          dsimp only
          split
          · exact hafter.trans t.follows_rolledBack
          · exact hafter
        · rwa [hrun] at hafter

end Bulk.Update

end Imageboard
