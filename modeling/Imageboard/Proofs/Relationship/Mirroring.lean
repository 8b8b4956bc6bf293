import Imageboard.Proofs.Tagging.Mirroring
import Imageboard.Relationship.Approval

/-!
# Work on relationships that comes to the same in two stores

Checking, creating, approving and rejecting aliases and implications comes to the same in stores that
are alike. A relationship that is found or created is the same but for its stamps, and no check looks at
these.
-/

namespace Imageboard

namespace Store

open Work Contents

/-- Relationships that are the same but for their stamps have the same id and the same two sides. -/
theorem sides_eq_of_undated_eq {r q : Relationship} (h : r.undated = q.undated) :
    r.id = q.id ∧ r.antecedent = q.antecedent ∧ r.consequent = q.consequent :=
  ⟨(congrArg Relationship.id h :), (congrArg Relationship.antecedent h :),
    (congrArg Relationship.consequent h :)⟩

/-- Moving to a new alias generation leaves a store that is like the one before. -/
theorem mirrors_bumpAliasesFor (kind : RelationshipKind) :
    MirrorsExactly (bumpAliasesFor kind) (bumpAliasesFor kind) := by
  cases kind
  · exact mirrors_modify (fun s => ⟨rfl, rfl, rfl⟩) fun s => ⟨rfl, rfl, rfl⟩
  · exact mirrors_pure rfl

/-- A relationship is added in both stores. -/
theorem mirrors_insertRelationship (kind : RelationshipKind) (antecedent consequent status : String)
    (forumTopicId creatorId : Option Int) :
    Mirrors Relationship.undated
      (insertRelationship kind antecedent consequent status forumTopicId creatorId)
      (insertRelationship kind antecedent consequent status forumTopicId creatorId) := by
  refine Mirrors.getBind fun s t _ => Mirrors.bind (e := Relationship.undated) ?_ fun a b hab =>
    (mirrors_bumpAliasesFor kind).bindSame fun _ => mirrors_pure hab
  exact mirrors_write
    (·.addRelationship kind antecedent consequent status forumTopicId creatorId .null)
    (undatedOutcome_addRelationship _ _ _ _ _ _ s.stamp)
    (undatedOutcome_addRelationship _ _ _ _ _ _ t.stamp) _ _

/-- A relationship between two names is found or not in both stores. -/
theorem mirrors_findRelationship (kind : RelationshipKind) (antecedent consequent status : String) :
    Mirrors (Option.map Relationship.undated)
      (findRelationship kind antecedent consequent status)
      (findRelationship kind antecedent consequent status) :=
  mirrors_read _ _ (·.findRelationship? kind antecedent consequent status) fun c =>
    findRelationship?_undated c kind antecedent consequent status

/-- The relationships in force are the same in both stores. -/
theorem mirrors_activeRelationships (kind : RelationshipKind) :
    Mirrors (List.map Relationship.undated) (activeRelationships kind) (activeRelationships kind) :=
  mirrors_read _ _ (·.activeRelationships kind) fun c => activeRelationships_undated c kind

/-- A name stands for the same in both stores. -/
theorem mirrors_activeAliasConsequent (name : String) :
    MirrorsExactly (activeAliasConsequent name) (activeAliasConsequent name) :=
  mirrors_read _ _ (·.aliasOf? name) fun c => aliasOf?_undated c name

/-- Changes of relationships that are the same up to stamps come to the same in both stores. -/
theorem mirrors_editRelationships {kind : RelationshipKind} (ts : List Table) (vs : List Value)
    {p : Relationship → Bool} {f g : Relationship → Relationship} (h : Relationship → Relationship)
    (hp : ∀ r, p r.undated = p r) (hf : ∀ r, (f r).undated = h r.undated)
    (hg : ∀ r, (g r).undated = h r.undated) :
    MirrorsExactly (write ts vs fun c => c.editRelationships kind p f)
      (write ts vs fun c => c.editRelationships kind p g) :=
  mirrors_write (·.editRelationships kind p h) (undatedOutcome_editRelationships hp hf)
    (undatedOutcome_editRelationships hp hg) ts vs

/-- A relationship is given another status in both stores. -/
theorem mirrors_setRelationshipStatus (kind : RelationshipKind) (relationshipId : Int)
    (status : String) (approverId : Option Int) :
    MirrorsExactly (setRelationshipStatus kind relationshipId status approverId)
      (setRelationshipStatus kind relationshipId status approverId) := by
  let settled (c : Contents) : Except StoreFault (Int × Contents) :=
    if (c.relationships kind).any (·.id = relationshipId) then
      (Status.named? status).elim (.error (.check (statusRule kind))) fun status =>
        c.editRelationships kind (·.id = relationshipId) fun r =>
          { r with status := status, approverId := approverId.or r.approverId, updatedAt := .null }
    else .ok (0, c)
  refine Mirrors.getBind fun s t _ => Mirrors.bindSame (mirrors_write settled ?_ ?_ _ _) fun _ =>
    mirrors_bumpAliasesFor kind
  all_goals
    intro c
    have hthere : (c.undated.relationships kind).any (·.id = relationshipId) =
        (c.relationships kind).any (·.id = relationshipId) := by
      rw [relationships_undated, List.any_map]
      rfl
    dsimp only [settled]
    rw [hthere]
    split
    · cases Status.named? status with
      | none => rfl
      | some status =>
        refine undatedOutcome_editRelationships ?_ ?_ c
        · exact fun _ => rfl
        · exact fun _ => rfl
    · rfl

/-- Aliases are retargeted in both stores. -/
theorem mirrors_retargetAliases (oldName newName : String) :
    MirrorsExactly (retargetAliases oldName newName) (retargetAliases oldName newName) :=
  Mirrors.getBind fun _ _ _ => Mirrors.bindSame
    (mirrors_editRelationships _ _ (fun r => { r with consequent := newName, updatedAt := .null })
      (fun _ => rfl) (fun _ => rfl) fun _ => rfl) fun _ =>
    (mirrors_bumpAliasesFor .alias).bindSame fun _ => mirrors_pure rfl

/-- Implications that are the same but for their stamps are moved in both stores. -/
theorem mirrors_moveEach (oldName newName : String) {rs qs : List Relationship}
    (h : rs.map Relationship.undated = qs.map Relationship.undated) :
    MirrorsExactly (moveEach oldName newName rs) (moveEach oldName newName qs) := by
  induction rs generalizing qs with
  | nil =>
    obtain rfl := List.map_eq_nil_iff.1 h.symm
    exact mirrors_pure rfl
  | cons r rest ih =>
    cases qs with
    | nil => cases h
    | cons q more =>
      obtain ⟨hfirst, hrest⟩ := List.cons.inj h
      obtain ⟨hid, hantecedent, hconsequent⟩ := sides_eq_of_undated_eq hfirst
      rw [moveEach, moveEach, hid, hantecedent, hconsequent]
      refine Mirrors.ite (fun _ => ih hrest) fun _ =>
        (mirrors_findRelationship _ _ _ _).bind fun a b hab => ?_
      have hsome : a.isSome = b.isSome := by
        rw [← Option.isSome_map (f := Relationship.undated), hab, Option.isSome_map]
      rw [hsome]
      refine Mirrors.ite (fun _ => ?_) fun _ => ?_
      · exact (mirrors_setRelationshipStatus _ _ _ _).bindSame fun _ => ih hrest
      · exact Mirrors.getBind fun s t _ => Mirrors.bindSame (mirrors_editRelationships _ _
          (fun p => { p with
            antecedent := renamed oldName newName q.antecedent
            consequent := renamed oldName newName q.consequent
            updatedAt := .null }) (fun _ => rfl) (fun _ => rfl) fun _ => rfl) fun _ =>
          (ih hrest).bindSame fun _ => mirrors_pure rfl

/-- Implications are moved in both stores. -/
theorem mirrors_moveImplications (oldName newName : String) :
    MirrorsExactly (moveImplications oldName newName) (moveImplications oldName newName) :=
  (mirrors_activeRelationships .implication).bind fun _ _ h => mirrors_moveEach oldName newName h

/-- Whether there is a wiki page is the same in both stores. -/
theorem mirrors_wikiPageExists (title : String) :
    MirrorsExactly (wikiPageExists title) (wikiPageExists title) :=
  mirrors_read _ _ (fun c => c.wikiPages.any fun w => w.title = title && w.isDeleted = 0) fun _ =>
    List.any_map

/-- Whether there is an active artist is the same in both stores. -/
theorem mirrors_artistExists (name : String) :
    MirrorsExactly (artistExists name) (artistExists name) :=
  mirrors_read _ _ (fun c => c.artists.any fun a => a.name = name && a.isActive = 1) fun _ =>
    List.any_map

/-- A wiki page is renamed in both stores. -/
theorem mirrors_renameWikiPage (oldTitle newTitle : String) :
    MirrorsExactly (renameWikiPage oldTitle newTitle) (renameWikiPage oldTitle newTitle) :=
  Mirrors.getBind fun s t _ => mirrors_write (·.renameWikiPage oldTitle newTitle .null)
    (undatedOutcome_renameWikiPage _ _ s.stamp) (undatedOutcome_renameWikiPage _ _ t.stamp) _ _

/-- An artist is renamed in both stores. -/
theorem mirrors_renameArtist (oldName newName : String) :
    MirrorsExactly (renameArtist oldName newName) (renameArtist oldName newName) :=
  Mirrors.getBind fun s t _ => mirrors_write (·.renameArtist oldName newName .null)
    (undatedOutcome_renameArtist _ _ s.stamp) (undatedOutcome_renameArtist _ _ t.stamp) _ _

end Store

namespace Relationship

open Store Work

/-! ## Checks -/

/-- The graph of implications is the same in both stores. -/
theorem mirrors_implicationGraph : MirrorsExactly implicationGraph implicationGraph := by
  refine (mirrors_activeRelationships .implication).bind fun rs qs h => mirrors_pure ?_
  have hedges := congrArg (List.map fun r : Relationship => (r.antecedent, r.consequent)) h
  rw [List.map_map, List.map_map] at hedges
  exact congrArg Graph.mk hedges

/-- The category of a tag is the same in both stores. -/
theorem mirrors_categoryOf (name : String) : MirrorsExactly (categoryOf name) (categoryOf name) :=
  (mirrors_getTag name).bindOption
    (Mirrors.getBind fun _ _ hst => mirrors_pure (by rw [hst.categories])) fun _ _ hab =>
      mirrors_pure (congrArg Tag.category hab :)

/-- The post count of a tag is the same in both stores. -/
theorem mirrors_postCountOf (name : String) : MirrorsExactly (postCountOf name) (postCountOf name) :=
  (mirrors_getTag name).bindOption (mirrors_pure rfl) fun _ _ hab =>
    mirrors_pure (congrArg Tag.postCount hab :)

/-- The same wiki pages are missing in both stores. -/
theorem mirrors_pageErrors (names : List String) :
    MirrorsExactly (pageErrors names) (pageErrors names) := by
  induction names with
  | nil => exact mirrors_pure rfl
  | cons name rest ih =>
    exact (mirrors_wikiPageExists name).bindSame fun _ => ih.bindSame fun _ => mirrors_pure rfl

/-- The same is wrong with an alias in both stores. -/
theorem mirrors_aliasErrors (antecedent consequent : String) (config : Config)
    (skipSecondary : Bool) :
    MirrorsExactly (aliasErrors antecedent consequent config skipSecondary)
      (aliasErrors antecedent consequent config skipSecondary) := by
  refine Mirrors.ite (fun _ => mirrors_pure rfl) fun _ => ?_
  refine (mirrors_activeAliasConsequent antecedent).bindSame fun existing =>
    (mirrors_activeAliasConsequent consequent).bindSame fun next => Mirrors.getBind fun s t hst => ?_
  rw [hst.categories]
  have hsecondary : MirrorsExactly (secondaryAliasErrors antecedent consequent config)
      (secondaryAliasErrors antecedent consequent config) :=
    (mirrors_pageErrors _).bindSame fun _ => (mirrors_postCountOf antecedent).bindSame fun _ =>
      mirrors_pure rfl
  exact (mirrors_categoryOf antecedent).bindSame fun first =>
    (mirrors_categoryOf consequent).bindSame fun second =>
      Mirrors.ite (fun _ => mirrors_pure rfl) fun _ => hsecondary.bindSame fun _ => mirrors_pure rfl

/-- The same is wrong with an implication in both stores. -/
theorem mirrors_implicationErrors (antecedent consequent : String) (skipSecondary : Bool) :
    MirrorsExactly (implicationErrors antecedent consequent skipSecondary)
      (implicationErrors antecedent consequent skipSecondary) := by
  refine Mirrors.ite (fun _ => mirrors_pure rfl) fun _ => ?_
  exact mirrors_implicationGraph.bindSame fun g =>
    (mirrors_activeAliasConsequent antecedent).bindSame fun first =>
      (mirrors_activeAliasConsequent consequent).bindSame fun second =>
        Mirrors.ite (fun _ => mirrors_pure rfl) fun _ =>
          (mirrors_pageErrors _).bindSame fun _ => mirrors_pure rfl

/-- A request is refused in both stores or in none. -/
theorem mirrors_refuseIfAny (errors : List String) (request : String) :
    MirrorsExactly (refuseIfAny errors request) (refuseIfAny errors request) :=
  Mirrors.ite (fun _ => mirrors_pure rfl) fun _ => mirrors_throw _

/-! ## Changes -/

/-- An alias is created or refused in both stores. -/
theorem mirrors_createAlias (antecedent consequent : String) (config : Config)
    (forumTopicId creatorId : Option Int) (skipSecondary : Bool) :
    Mirrors Relationship.undated
      (createAlias antecedent consequent config forumTopicId creatorId skipSecondary)
      (createAlias antecedent consequent config forumTopicId creatorId skipSecondary) :=
  (mirrors_aliasErrors _ _ _ _).bindSame fun _ => (mirrors_refuseIfAny _ _).bindSame fun _ =>
    mirrors_insertRelationship _ _ _ _ _ _

/-- An implication is created or refused in both stores. -/
theorem mirrors_createImplication (antecedent consequent : String)
    (forumTopicId creatorId : Option Int) (skipSecondary : Bool) :
    Mirrors Relationship.undated
      (createImplication antecedent consequent forumTopicId creatorId skipSecondary)
      (createImplication antecedent consequent forumTopicId creatorId skipSecondary) :=
  (mirrors_implicationErrors _ _ _).bindSame fun _ => (mirrors_refuseIfAny _ _).bindSame fun _ =>
    mirrors_insertRelationship _ _ _ _ _ _

/-- A page is renamed in both stores if it is a kind of page that is found and renamed in both. -/
theorem mirrors_renameIfFree {pageExists : String → Work Bool} {rename : String → String → Work Bool}
    (hexists : ∀ name, MirrorsExactly (pageExists name) (pageExists name))
    (hrename : ∀ oldName newName, MirrorsExactly (rename oldName newName) (rename oldName newName))
    (oldName newName : String) :
    MirrorsExactly (renameIfFree pageExists rename oldName newName)
      (renameIfFree pageExists rename oldName newName) :=
  (hexists oldName).bindSame fun _ => Mirrors.ite
    (fun _ => (hexists newName).bindSame fun _ =>
      Mirrors.ite (fun _ => mirrors_pure rfl) fun _ => hrename _ _)
    fun _ => mirrors_pure rfl

/-- The pages of a tag are renamed in both stores. -/
theorem mirrors_renamePages (oldName newName : String) :
    MirrorsExactly (renamePages oldName newName) (renamePages oldName newName) :=
  (mirrors_renameIfFree mirrors_wikiPageExists mirrors_renameWikiPage _ _).bindSame fun _ =>
    (mirrors_renameIfFree mirrors_artistExists mirrors_renameArtist _ _).bindSame fun _ =>
      mirrors_pure rfl

/-- An alias that is the same but for its stamps is put in force in both stores. -/
theorem mirrors_approveAlias {r q : Relationship} (h : r.undated = q.undated)
    (approverId : Option Int) (withPages : Bool) :
    MirrorsExactly (approveAlias r approverId withPages) (approveAlias q approverId withPages) := by
  obtain ⟨hid, hantecedent, hconsequent⟩ := sides_eq_of_undated_eq h
  rw [approveAlias, approveAlias, hid, hantecedent, hconsequent]
  have hrest : MirrorsExactly (do
      let count ← replaceTagOnPosts q.antecedent q.consequent
      if withPages then
        let _ ← renamePages q.antecedent q.consequent
      return count) (do
      let count ← replaceTagOnPosts q.antecedent q.consequent
      if withPages then
        let _ ← renamePages q.antecedent q.consequent
      return count) :=
    (mirrors_replaceTagOnPosts _ _).bindSame fun count => Mirrors.ite
      (fun _ => (mirrors_renamePages _ _).bindSame fun _ => mirrors_pure rfl) fun _ => mirrors_pure rfl
  refine (mirrors_setRelationshipStatus _ _ _ _).bindSame fun _ =>
    (mirrors_findOrCreateTag _ _).bind fun a b hab =>
      (mirrors_findOrCreateTag _ _).bind fun a' b' hab' =>
        (mirrors_retargetAliases _ _).bindSame fun _ => (mirrors_moveImplications _ _).bindSame fun _ =>
          Mirrors.getBind fun s t hst => ?_
  have hcategory : a.category = b.category := (congrArg Tag.category hab :)
  have hcategory' : a'.category = b'.category := (congrArg Tag.category hab' :)
  rw [hcategory, hcategory', id_eq_of_undated_eq hab', hst.categories]
  exact Mirrors.ite (fun _ => (mirrors_setTagCategory _ _).bindSame fun _ => hrest) fun _ => hrest

/-- An implication that is the same but for its stamps is put in force in both stores. -/
theorem mirrors_approveImplication {r q : Relationship} (h : r.undated = q.undated)
    (approverId : Option Int) :
    MirrorsExactly (approveImplication r approverId) (approveImplication q approverId) := by
  obtain ⟨hid, hantecedent, hconsequent⟩ := sides_eq_of_undated_eq h
  rw [approveImplication, approveImplication, hid, hantecedent, hconsequent]
  exact (mirrors_setRelationshipStatus _ _ _ _).bindSame fun _ =>
    (mirrors_findOrCreateTag _ _).bind fun _ _ _ => (mirrors_findOrCreateTag _ _).bind fun _ _ _ =>
      mirrors_implicationGraph.bindSame fun g => mirrors_addTagsToPostsWith _ _

end Relationship

end Imageboard
