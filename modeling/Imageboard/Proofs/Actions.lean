import Imageboard.Proofs.Operations
import Imageboard.Proofs.Store.Collecting
import Imageboard.Store.Maintenance

/-!
# All that is done to a store

Beside the operations on posts and tags there is work on users, relationships, pages, pools, favourites
and votes. Scripts are applied in transactions of others, things are put off until a commit, and stores are
closed and opened again. Between all this and during it others take hold of the store and let it go. What a
property of the contents needs in order to outlast any of it is listed once, and then it outlasts runs of
any length.
-/

namespace Imageboard

open Store Work

variable {P : Contents → Prop}

/-- A property of contents that no table but those of users, posts, tags and taggings matters to, and that
work on these keeps. -/
structure Contents.Outlasts (P : Contents → Prop) : Prop where
  tagging : TaggingKeeps P
  singlePosts : SinglePostsKeep P
  recount : ∀ c : Contents, P c → P c.recountAll
  relationships : ∀ kind, Contents.IgnoresRelationships kind P
  pages : Contents.IgnoresPages P
  collections : Contents.IgnoresCollections P
  withAllTables : ∀ c : Contents, P c → P c.withAllTables

/-- Something that is done to a store from outside of it or happens to it. Looking at a store changes
nothing and is left out. -/
inductive Action where
  | operation (op : Operation)
  | findOrCreateUser (name : String)
  | setTagCategory (tagId category : Int)
  | insertRelationship (kind : RelationshipKind) (antecedent consequent status : String)
      (forumTopicId creatorId : Option Int)
  | setRelationshipStatus (kind : RelationshipKind) (id : Int) (status : String)
      (approverId : Option Int)
  | retargetAliases (oldName newName : String)
  | moveImplications (oldName newName : String)
  | createAlias (antecedent consequent : String) (config : Config)
      (forumTopicId creatorId : Option Int) (skipSecondary : Bool)
  | createImplication (antecedent consequent : String) (forumTopicId creatorId : Option Int)
      (skipSecondary : Bool)
  | reject (kind : RelationshipKind) (r : Relationship)
  | renamePages (oldName newName : String)
  | createWikiPage (title body : String)
  | renameWikiPage (oldTitle newTitle : String)
  | createArtist (name : String)
  | renameArtist (oldName newName : String)
  | createPool (name : String) (postIds : List Int) (category : String)
  | addFavorite (userId postId : Int)
  | addVote (userId postId score : Int)
  | applyScript (u : Bulk.Update) (viewer : Viewer) (number : Nat)
  | afterCommit (number : Nat) (action : AfterCommit)
  | reopen

namespace Action

/-- The store after an action that was done amid others, whether it succeeded or failed. -/
def after (s : Store) (others : Others) : Action → Store
  | operation op => op.after s others
  | findOrCreateUser name => ((Store.findOrCreateUser name).runOn s others).2
  | setTagCategory tagId category => ((Store.setTagCategory tagId category).runOn s others).2
  | insertRelationship kind antecedent consequent status forumTopicId creatorId =>
    ((Store.insertRelationship kind antecedent consequent status forumTopicId creatorId).runOn s others).2
  | setRelationshipStatus kind id status approverId =>
    ((Store.setRelationshipStatus kind id status approverId).runOn s others).2
  | retargetAliases oldName newName => ((Store.retargetAliases oldName newName).runOn s others).2
  | moveImplications oldName newName => ((Store.moveImplications oldName newName).runOn s others).2
  | createAlias antecedent consequent config forumTopicId creatorId skipSecondary =>
    ((Relationship.createAlias antecedent consequent config forumTopicId creatorId
      skipSecondary).runOn s others).2
  | createImplication antecedent consequent forumTopicId creatorId skipSecondary =>
    ((Relationship.createImplication antecedent consequent forumTopicId creatorId
      skipSecondary).runOn s others).2
  | reject kind r => ((Relationship.reject kind r).runOn s others).2
  | renamePages oldName newName => ((Relationship.renamePages oldName newName).runOn s others).2
  | createWikiPage title body => ((Store.createWikiPage title body).runOn s others).2
  | renameWikiPage oldTitle newTitle => ((Store.renameWikiPage oldTitle newTitle).runOn s others).2
  | createArtist name => ((Store.createArtist name).runOn s others).2
  | renameArtist oldName newName => ((Store.renameArtist oldName newName).runOn s others).2
  | createPool name postIds category => ((Store.createPool name postIds category).runOn s others).2
  | addFavorite userId postId => ((Store.addFavorite userId postId).runOn s others).2
  | addVote userId postId score => ((Store.addVote userId postId score).runOn s others).2
  | applyScript u viewer number => ((u.apply viewer number).runOn s others).2
  | afterCommit number action => ((Work.afterCommit number action).runOn s others).2
  | reopen => s.reopened

/-- One action keeps, of all contents that can come back, what outlasts all of them. -/
theorem everywhere_after (hP : Contents.Outlasts P) {s : Store} {others : Others} (hs : s.Everywhere P)
    (a : Action) : (a.after s others).Everywhere P := by
  have hrel (kind : RelationshipKind) : RelationshipKeeps kind P :=
    relationshipKeeps_of_ignores (hP.relationships kind)
  cases a with
  | operation op =>
    exact op.everywhere_after hP.tagging hrel hP.pages hP.recount hs
      (Operation.contents_after_of_singlePosts hP.singlePosts hs.contents)
  | findOrCreateUser name => exact (hP.tagging.findOrCreateUser name).preserves s hs
  | setTagCategory tagId category => exact (hP.tagging.setTagCategory _ _).preserves s hs
  | insertRelationship kind antecedent consequent status forumTopicId creatorId =>
    exact (keeps_insertRelationship (hrel kind) _ _ _ _ _).preserves s hs
  | setRelationshipStatus kind id status approverId =>
    exact (keeps_setRelationshipStatus (hrel kind) _ _ _).preserves s hs
  | retargetAliases oldName newName => exact (keeps_retargetAliases (hrel _) _ _).preserves s hs
  | moveImplications oldName newName => exact (keeps_moveImplications (hrel _) _ _).preserves s hs
  | createAlias antecedent consequent config forumTopicId creatorId skipSecondary =>
    exact (Relationship.keeps_createAlias (hrel _) _ _ _ _ _ _).preserves s hs
  | createImplication antecedent consequent forumTopicId creatorId skipSecondary =>
    exact (Relationship.keeps_createImplication (hrel _) _ _ _ _ _).preserves s hs
  | reject kind r => exact (keeps_setRelationshipStatus (hrel kind) _ _ _).preserves s hs
  | renamePages oldName newName => exact (Relationship.keeps_renamePages hP.pages _ _).preserves s hs
  | createWikiPage title body => exact (keeps_createWikiPage hP.pages _ _).preserves s hs
  | renameWikiPage oldTitle newTitle => exact (keeps_renameWikiPage hP.pages _ _).preserves s hs
  | createArtist name => exact (keeps_createArtist hP.pages _).preserves s hs
  | renameArtist oldName newName => exact (keeps_renameArtist hP.pages _ _).preserves s hs
  | createPool name postIds category => exact (keeps_createPool hP.collections _ _ _).preserves s hs
  | addFavorite userId postId => exact (keeps_addFavorite hP.collections _ _).preserves s hs
  | addVote userId postId score => exact (keeps_addVote hP.collections _ _ _).preserves s hs
  | applyScript u viewer number =>
    exact Bulk.Update.preserves_apply
      (fun _ c => Bulk.Update.preserves_applyCommand hP.tagging hrel hP.pages c) s hs
  | afterCommit number action => exact preserves_afterCommit number action s hs
  | reopen => exact everywhere_of_closed rfl rfl (hP.withAllTables _ hs.committed)

end Action

namespace Store

/-- A store after some actions, each of which was done amid others and may have failed. -/
def afterAll (s : Store) (actions : List (Action × Others)) : Store :=
  actions.foldl (fun t step => step.1.after t step.2) s

/-- What outlasts one action outlasts all of them. -/
theorem Everywhere.afterAll (hP : Contents.Outlasts P) {s : Store} (hs : s.Everywhere P)
    (actions : List (Action × Others)) : (s.afterAll actions).Everywhere P := by
  induction actions generalizing s with
  | nil => exact hs
  | cons step rest ih => exact ih (step.1.everywhere_after hP hs)

end Store

end Imageboard
