import Imageboard.Proofs.Relationship.Editing
import Imageboard.Proofs.Tagging.Keeping
import Imageboard.Relationship.Approval

/-!
# What work on relationships keeps

Work on aliases and implications keeps what each change of them that the store accepts keeps. It
touches no other table, and renaming pages touches those of pages only. Approving a relationship
also changes tags and posts, so it keeps what work on these keeps.
-/

namespace Imageboard

/-- A property of contents that does not depend on the relationships of a kind. -/
def Contents.IgnoresRelationships (kind : RelationshipKind) (P : Contents → Prop) : Prop :=
  ∀ c rs, P c → P (c.withRelationships kind rs)

/-- A property of contents that does not depend on wiki pages and artists. -/
def Contents.IgnoresPages (P : Contents → Prop) : Prop :=
  ∀ c wikiPages artists, P c → P { c with wikiPages := wikiPages, artists := artists }

/-- A property of contents that stays when the store accepts a new relationship of a kind, or a
change of some that gives them no other ids. -/
structure RelationshipKeeps (kind : RelationshipKind) (P : Contents → Prop) : Prop where
  add : ∀ {c d : Contents} {r : Relationship} {antecedent consequent status : String}
    {forumTopicId creatorId : Option Int} {stamp : Value}, P c →
    c.addRelationship kind antecedent consequent status forumTopicId creatorId stamp = .ok (r, d) →
    P d
  edit : ∀ {c d : Contents} {p : Relationship → Bool} {f : Relationship → Relationship} {n : Int},
    P c → c.editRelationships kind p f = .ok (n, d) → (∀ r, (f r).id = r.id) → P d

variable {P : Contents → Prop}

/-- A property of other tables stays when relationships change. -/
theorem relationshipKeeps_of_ignores {kind : RelationshipKind}
    (hP : Contents.IgnoresRelationships kind P) : RelationshipKeeps kind P where
  add hc hd := by
    obtain ⟨rfl, -⟩ := Contents.addRelationship_eq_ok hd
    exact hP _ _ hc
  edit hc hd _ := by
    rw [Contents.editRelationships_eq_ok hd]
    exact hP _ _ hc

namespace Store

open Work

/-- Moving to a new alias generation keeps everything. -/
theorem keeps_bumpAliasesFor (kind : RelationshipKind) : Keeps P (bumpAliasesFor kind) := by
  cases kind <;> exact ⟨fun _ => rfl, fun _ hs => hs⟩

section Relationships

variable {kind : RelationshipKind} (hP : RelationshipKeeps kind P)
include hP

/-- Adding a relationship keeps what accepted changes keep. -/
theorem keeps_insertRelationship (antecedent consequent status : String)
    (forumTopicId creatorId : Option Int) :
    Keeps P (insertRelationship kind antecedent consequent status forumTopicId creatorId) :=
  keeps_get.bind fun _ => (keeps_write fun _ _ _ hc hd => hP.add hc hd).bind fun r =>
    (keeps_bumpAliasesFor kind).bind fun _ => keeps_pure r

/-- Giving a relationship another status keeps what accepted changes keep. -/
theorem keeps_setRelationshipStatus (id : Int) (status : String)
    (approverId : Option Int) : Keeps P (setRelationshipStatus kind id status approverId) := by
  refine keeps_get.bind fun s => (keeps_write fun c n d hc hd => ?_).bind fun _ =>
    keeps_bumpAliasesFor kind
  split at hd
  · split at hd
    · contradiction
    · exact hP.edit hc hd fun _ => rfl
  · obtain ⟨-, rfl⟩ := Prod.mk.inj (Except.ok.inj hd)
    exact hc

end Relationships

/-- Retargeting aliases keeps what accepted changes keep. -/
theorem keeps_retargetAliases (hP : RelationshipKeeps .alias P) (oldName newName : String) :
    Keeps P (retargetAliases oldName newName) := by
  refine keeps_get.bind fun s => (keeps_write fun c n d hc hd => ?_).bind fun n =>
    (keeps_bumpAliasesFor .alias).bind fun _ => keeps_pure n
  exact hP.edit hc hd fun _ => rfl

/-- Moving some implications keeps what accepted changes keep. -/
theorem keeps_moveEach (hP : RelationshipKeeps .implication P) (oldName newName : String)
    (rs : List Relationship) : Keeps P (moveEach oldName newName rs) := by
  induction rs with
  | nil => exact keeps_pure _
  | cons r rest ih =>
    refine Keeps.ite ih ((keeps_read ..).bind fun twin => Keeps.ite ?_ ?_)
    · exact (keeps_setRelationshipStatus hP _ _ _).bind fun _ => ih
    · refine keeps_get.bind fun s => (keeps_write fun c n d hc hd => ?_).bind fun _ =>
        ih.bind fun _ => keeps_pure _
      exact hP.edit hc hd fun _ => rfl

/-- Moving implications keeps what accepted changes keep. -/
theorem keeps_moveImplications (hP : RelationshipKeeps .implication P) (oldName newName : String) :
    Keeps P (moveImplications oldName newName) :=
  (keeps_read ..).bind fun rs => keeps_moveEach hP oldName newName rs

section Pages

variable (hP : Contents.IgnoresPages P)
include hP

/-- Making a wiki page keeps a property of other tables. -/
theorem keeps_createWikiPage (title body : String) : Keeps P (createWikiPage title body) := by
  refine keeps_get.bind fun s => keeps_write fun c a d hc hd => ?_
  rw [Contents.addWikiPage] at hd
  split at hd
  · contradiction
  · obtain ⟨-, rfl⟩ := Prod.mk.inj (Except.ok.inj hd)
    exact hP c _ _ hc

/-- Making an artist keeps a property of other tables. -/
theorem keeps_createArtist (name : String) : Keeps P (createArtist name) := by
  refine keeps_get.bind fun s => keeps_write fun c a d hc hd => ?_
  rw [Contents.addArtist] at hd
  split at hd
  · contradiction
  · obtain ⟨-, rfl⟩ := Prod.mk.inj (Except.ok.inj hd)
    exact hP c _ _ hc

/-- Renaming a wiki page keeps a property of other tables. -/
theorem keeps_renameWikiPage (oldTitle newTitle : String) :
    Keeps P (renameWikiPage oldTitle newTitle) := by
  refine keeps_get.bind fun s => keeps_write fun c a d hc hd => ?_
  rw [Contents.renameWikiPage] at hd
  split at hd
  · obtain ⟨-, rfl⟩ := Prod.mk.inj (Except.ok.inj hd)
    exact hc
  · split at hd
    · contradiction
    · obtain ⟨-, rfl⟩ := Prod.mk.inj (Except.ok.inj hd)
      exact hP c _ _ hc

/-- Renaming an artist keeps a property of other tables. -/
theorem keeps_renameArtist (oldName newName : String) : Keeps P (renameArtist oldName newName) := by
  refine keeps_get.bind fun s => keeps_write fun c a d hc hd => ?_
  rw [Contents.renameArtist] at hd
  split at hd
  · obtain ⟨-, rfl⟩ := Prod.mk.inj (Except.ok.inj hd)
    exact hc
  · split at hd
    · contradiction
    · obtain ⟨-, rfl⟩ := Prod.mk.inj (Except.ok.inj hd)
      exact hP c _ _ hc

end Pages

end Store

namespace Relationship

open Store Work

/-- The graph of implications is only read. -/
theorem reads_implicationGraph : Reads implicationGraph :=
  (reads_read _ _ _).bind fun _ => reads_pure _

/-- The category of a tag is only read. -/
theorem reads_categoryOf (name : String) : Reads (categoryOf name) := by
  refine (reads_read _ _ _).bind fun found => ?_
  cases found with
  | some tag => exact reads_pure _
  | none => exact reads_get.bind fun _ => reads_pure _

/-- The post count of a tag is only read. -/
theorem reads_postCountOf (name : String) : Reads (postCountOf name) := by
  refine (reads_read _ _ _).bind fun found => ?_
  cases found with
  | some tag => exact reads_pure _
  | none => exact reads_pure _

/-- Wiki pages are only looked for. -/
theorem reads_pageErrors (names : List String) : Reads (pageErrors names) := by
  induction names with
  | nil => exact reads_pure _
  | cons name rest ih => exact (reads_read _ _ _).bind fun _ => ih.bind fun _ => reads_pure _

/-- The rules for the pages and counts of a new alias are only checked. -/
theorem reads_secondaryAliasErrors (antecedent consequent : String) (config : Config) :
    Reads (secondaryAliasErrors antecedent consequent config) :=
  (reads_pageErrors _).bind fun _ => (reads_postCountOf _).bind fun _ => reads_pure _

/-- The rules for a new alias are only checked. -/
theorem reads_aliasErrors (antecedent consequent : String) (config : Config)
    (skipSecondary : Bool) : Reads (aliasErrors antecedent consequent config skipSecondary) := by
  refine Reads.ite (reads_pure _) ?_
  refine (reads_read _ _ _).bind fun existing => (reads_read _ _ _).bind fun next => ?_
  refine reads_get.bind fun s => (reads_categoryOf _).bind fun first =>
    (reads_categoryOf _).bind fun second =>
      Reads.ite ((reads_pure _).bind fun _ => reads_pure _)
        ((reads_secondaryAliasErrors _ _ _).bind fun _ => reads_pure _)

/-- The rules for a new implication are only checked. -/
theorem reads_implicationErrors (antecedent consequent : String) (skipSecondary : Bool) :
    Reads (implicationErrors antecedent consequent skipSecondary) := by
  refine Reads.ite (reads_pure _) ?_
  refine reads_implicationGraph.bind fun g => (reads_read _ _ _).bind fun first =>
    (reads_read _ _ _).bind fun second =>
      Reads.ite ((reads_pure _).bind fun _ => reads_pure _)
        ((reads_pageErrors _).bind fun _ => reads_pure _)

/-- A request that breaks rules is refused without a change. -/
theorem reads_refuseIfAny (errors : List String) (request : String) :
    Reads (refuseIfAny errors request) :=
  Reads.ite (reads_pure _) (reads_throw _)

/-- Creating an alias keeps what accepted changes of aliases keep. -/
theorem keeps_createAlias (hP : RelationshipKeeps .alias P)
    (antecedent consequent : String) (config : Config) (forumTopicId creatorId : Option Int)
    (skipSecondary : Bool) :
    Keeps P (createAlias antecedent consequent config forumTopicId creatorId skipSecondary) :=
  (reads_aliasErrors _ _ _ _).keeps.bind fun _ =>
    (reads_refuseIfAny _ _).keeps.bind fun _ => keeps_insertRelationship hP _ _ _ _ _

/-- Creating an implication keeps what accepted changes of implications keep. -/
theorem keeps_createImplication (hP : RelationshipKeeps .implication P)
    (antecedent consequent : String) (forumTopicId creatorId : Option Int) (skipSecondary : Bool) :
    Keeps P (createImplication antecedent consequent forumTopicId creatorId skipSecondary) :=
  (reads_implicationErrors _ _ _).keeps.bind fun _ =>
    (reads_refuseIfAny _ _).keeps.bind fun _ => keeps_insertRelationship hP _ _ _ _ _

/-- Renaming a page keeps what the change of its table keeps. -/
theorem keeps_renameIfFree {pageExists : String → Work Bool} {rename : String → String → Work Bool}
    (hexists : ∀ name, Reads (pageExists name)) (hrename : ∀ old new, Keeps P (rename old new))
    (oldName newName : String) : Keeps P (renameIfFree pageExists rename oldName newName) :=
  (hexists oldName).keeps.bind fun _ => Keeps.ite
    ((hexists newName).keeps.bind fun _ => Keeps.ite (keeps_pure _) (hrename _ _)) (keeps_pure _)

/-- Renaming the pages of a tag keeps a property of other tables. -/
theorem keeps_renamePages (hP : Contents.IgnoresPages P) (oldName newName : String) :
    Keeps P (renamePages oldName newName) :=
  (keeps_renameIfFree (fun _ => reads_read _ _ _) (keeps_renameWikiPage hP) _ _).bind fun _ =>
    (keeps_renameIfFree (fun _ => reads_read _ _ _) (keeps_renameArtist hP) _ _).bind fun _ =>
      keeps_pure _

section Approving

variable (htags : TaggingKeeps P)
include htags

/-- What is done when the relationships of an approved alias have been moved keeps what work on tags
keeps, if no page matters. -/
theorem keeps_finishAlias (hpages : Contents.IgnoresPages P) (r : Relationship)
    (antecedent consequent : Tag) (withPages : Bool) :
    Keeps P (do
      let general := (← get).categories.generalCode
      if antecedent.category ≠ general ∧ consequent.category = general then
        setTagCategory consequent.id antecedent.category
      let count ← replaceTagOnPosts r.antecedent r.consequent
      if withPages then
        let _ ← renamePages r.antecedent r.consequent
      return count) := by
  have hrest : Keeps P (do
      let count ← replaceTagOnPosts r.antecedent r.consequent
      if withPages then
        let _ ← renamePages r.antecedent r.consequent
      return count) :=
    (htags.replaceTagOnPosts _ _).bind fun count =>
      Keeps.ite ((keeps_renamePages hpages _ _).bind fun _ => keeps_pure _) (keeps_pure _)
  exact keeps_get.bind fun s => Keeps.ite ((htags.setTagCategory _ _).bind fun _ => hrest) hrest

variable (himplications : RelationshipKeeps .implication P)
include himplications

/-- Approving an alias keeps what work on tags and on relationships keeps, if no page matters. -/
theorem keeps_approveAlias (haliases : RelationshipKeeps .alias P)
    (hpages : Contents.IgnoresPages P) (r : Relationship)
    (approverId : Option Int) (withPages : Bool) : Keeps P (approveAlias r approverId withPages) :=
  (keeps_setRelationshipStatus haliases _ _ _).bind fun _ =>
    (htags.findOrCreateTag _ _).bind fun antecedent =>
      (htags.findOrCreateTag _ _).bind fun consequent =>
        (keeps_retargetAliases haliases _ _).bind fun _ =>
          (keeps_moveImplications himplications _ _).bind fun _ =>
            keeps_finishAlias htags hpages r antecedent consequent withPages

/-- Approving an implication keeps what work on tags and on implications keeps. -/
theorem keeps_approveImplication (r : Relationship) (approverId : Option Int) :
    Keeps P (approveImplication r approverId) :=
  (keeps_setRelationshipStatus himplications _ _ _).bind fun _ =>
    (htags.findOrCreateTag _ _).bind fun _ => (htags.findOrCreateTag _ _).bind fun _ =>
      reads_implicationGraph.keeps.bind fun _ => htags.addTagsToPostsWith _ _

end Approving

end Relationship

end Imageboard
