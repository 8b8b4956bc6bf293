import Imageboard.Proofs.Relationship.Editing
import Imageboard.Proofs.Relationship.Keeping
import Imageboard.Proofs.Store.Leading

/-!
# Where work on relationships leads

Work that adds relationships, changes their status or renames them leads where the changes of the
tables lead. For the moving of implications, which makes many changes one after the other, it is
enough to follow an invariant from each implication to the next.
-/

namespace Imageboard

/-- Only one status has the name of those in force. -/
theorem Status.eq_active_of_name {status : Status} (h : status.name = "active") :
    status = .active := by
  cases status with
  | active => rfl
  | pending | rejected => exact absurd h (by decide)

/-- What waits for approval is not in force. -/
theorem Status.ne_active_of_pending {status : Status} (h : Status.named? "pending" = some status) :
    status ≠ .active := by
  rintro rfl
  exact absurd h (by decide)

namespace Store

open Work

variable {P Q : Contents → Prop} {kind : RelationshipKind}

/-- Adding a relationship leads where the longer table leads. -/
theorem leads_insertRelationship {R : Relationship → Contents → Prop}
    {antecedent consequent status : String} {forumTopicId creatorId : Option Int}
    (h : ∀ c r, P c → r.antecedent = antecedent → r.consequent = consequent →
      Status.named? status = some r.status → (∀ q ∈ c.relationships kind, q.id ≠ r.id) →
      R r (c.withRelationships kind (c.relationships kind ++ [r]))) :
    Leads P (insertRelationship kind antecedent consequent status forumTopicId creatorId) R := by
  refine leads_get.bind fun s => Leads.bind (Q := R) (leads_write fun c r d hc hd => ?_) fun r =>
    (keeps_bumpAliasesFor kind).leads.bind fun _ => leads_pure r
  obtain ⟨rfl, hantecedent, hconsequent, hstatus, hfresh, -⟩ := Contents.addRelationship_eq_ok hd
  exact h c r hc hantecedent hconsequent hstatus hfresh

/-- Giving a relationship a status leads where the changed table leads. -/
theorem leads_setRelationshipStatus {id : Int} {status : String} {st : Status}
    {approverId : Option Int} (hstatus : Status.named? status = some st)
    (h : ∀ c f, P c → Relationship.Settles st f →
      Q (c.mapRelationships kind (·.id = id) f)) :
    Leads P (setRelationshipStatus kind id status approverId) fun _ => Q := by
  refine leads_get.bind fun s => Leads.bind (Q := fun _ => Q) (leads_write fun c n d hc hd => ?_)
    fun _ => (keeps_bumpAliasesFor kind).leads
  split at hd
  · rw [hstatus] at hd
    rw [Contents.editRelationships_eq_ok hd]
    exact h c _ hc ⟨fun _ => rfl, fun _ => rfl, fun _ => rfl, fun _ => rfl⟩
  next hnone =>
    obtain ⟨-, rfl⟩ := Prod.mk.inj (Except.ok.inj hd)
    have hsame := h c (fun r => { r with status := st }) hc
      ⟨fun _ => rfl, fun _ => rfl, fun _ => rfl, fun _ => rfl⟩
    rwa [Contents.mapRelationships_of_not (Bool.eq_false_iff.2 hnone)] at hsame

/-- Retargeting aliases leads where the changed table leads. -/
theorem leads_retargetAliases {oldName newName : String}
    (h : ∀ c stamp, P c → Q (c.mapRelationships .alias
      (fun r => r.consequent = oldName && r.status = .active && r.antecedent ≠ newName)
      fun r => { r with consequent := newName, updatedAt := stamp })) :
    Leads P (retargetAliases oldName newName) fun _ => Q := by
  refine leads_get.bind fun s => Leads.bind (Q := fun _ => Q) (leads_write fun c n d hc hd => ?_)
    fun n => (keeps_bumpAliasesFor .alias).leads.bind fun _ => leads_pure (Q := fun _ => Q) n
  rw [Contents.editRelationships_eq_ok hd]
  exact h c s.stamp hc

/-- Moving implications leads where its steps lead: passing over one that is not on the old name,
rejecting one that would be to itself or there twice, and renaming any other. -/
theorem leads_moveEach {I : List Relationship → Contents → Prop} {oldName newName : String}
    (hskip : ∀ r rest c, I (r :: rest) c → r.antecedent ≠ oldName ∧ r.consequent ≠ oldName → I rest c)
    (hreject : ∀ r rest c f, I (r :: rest) c → Relationship.Settles .rejected f →
      ¬ (r.antecedent ≠ oldName ∧ r.consequent ≠ oldName) →
      (renamed oldName newName r.antecedent = renamed oldName newName r.consequent ∨
        (renamed oldName newName r.antecedent, renamed oldName newName r.consequent) ∈
          c.inForce .implication) →
      I rest (c.mapRelationships .implication (·.id = r.id) f))
    (hmove : ∀ r rest c f, I (r :: rest) c →
      Relationship.Renames (renamed oldName newName r.antecedent)
        (renamed oldName newName r.consequent) f →
      renamed oldName newName r.antecedent ≠ renamed oldName newName r.consequent →
      I rest (c.mapRelationships .implication (·.id = r.id) f)) (rs : List Relationship) :
    Leads (I rs) (moveEach oldName newName rs) fun _ => I [] := by
  induction rs with
  | nil => exact leads_pure (Q := fun _ => I []) 0
  | cons r rest ih =>
    refine Leads.ite (fun hoff => ih.imp (fun c hc => hskip r rest c hc hoff) fun _ _ h => h)
      fun hon => (leads_read _ _ _).bind fun twin => Leads.ite (fun hrejected => ?_) fun hmoved => ?_
    · refine Leads.bind (Q := fun _ => I rest) (leads_setRelationshipStatus rfl ?_) fun _ => ih
      rintro c f ⟨hc, rfl⟩ hf
      refine hreject r rest c f hc hf hon (hrejected.imp id fun hsome => ?_)
      obtain ⟨t, ht⟩ := Option.isSome_iff_exists.1 hsome
      obtain ⟨hmem, hantecedent, hconsequent, hstatus⟩ := Contents.mem_of_findRelationship? ht
      exact Contents.mem_inForce.2
        ⟨t, hmem, Status.eq_active_of_name hstatus, Prod.ext hantecedent hconsequent⟩
    · refine leads_get.bind fun s => Leads.bind (Q := fun _ => I rest)
        (leads_write fun c n d hc hd => ?_) fun _ =>
          ih.bind fun more => leads_pure (Q := fun _ => I []) (more + 1)
      rw [Contents.editRelationships_eq_ok hd]
      exact hmove r rest c _ hc.1 ⟨fun _ => rfl, fun _ => rfl, fun _ => rfl, fun _ => rfl⟩
        fun heq => hmoved (Or.inl heq)

end Store

namespace Relationship

open Store Work

variable {P Q R : Contents → Prop} {r : Relationship} {approverId : Option Int}

/-- Approving an alias leads where moving aliases and implications leads, once the alias is in force,
if what comes between and after it does not matter. -/
theorem leads_approveAlias {withPages : Bool}
    (hactivate : Leads P (setRelationshipStatus .alias r.id "active" approverId) fun _ => Q)
    (htags : TaggingKeeps Q)
    (hmove : Leads Q (do
      let _ ← retargetAliases r.antecedent r.consequent
      moveImplications r.antecedent r.consequent) fun _ => R)
    (htags' : TaggingKeeps R) (hpages : Contents.IgnoresPages R) :
    Leads P (approveAlias r approverId withPages) fun _ => R := by
  refine hactivate.bind fun _ => (htags.findOrCreateTag _ _).leads.bind fun antecedent =>
    (htags.findOrCreateTag _ _).leads.bind fun consequent => ?_
  rw [← bind_assoc]
  exact hmove.bind fun _ => (keeps_finishAlias htags' hpages r antecedent consequent withPages).leads

/-- Approving an implication leads where putting it into force leads, if tags do not matter. -/
theorem leads_approveImplication
    (hactivate : Leads P (setRelationshipStatus .implication r.id "active" approverId) fun _ => Q)
    (htags : TaggingKeeps Q) : Leads P (approveImplication r approverId) fun _ => Q :=
  hactivate.bind fun _ => ((htags.findOrCreateTag _ _).bind fun _ =>
    (htags.findOrCreateTag _ _).bind fun _ => reads_implicationGraph.keeps.bind fun _ =>
      htags.addTagsToPostsWith _ _).leads

end Relationship

end Imageboard
