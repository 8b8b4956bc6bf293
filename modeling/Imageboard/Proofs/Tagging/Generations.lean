import Imageboard.Fixture.Import
import Imageboard.Proofs.Store.Generations
import Imageboard.Proofs.Tagging.Keeping

/-!
# Alias generations and tags

Work on users, tags, posts and taggings leaves the aliases and their generation as they are, so a
store follows the one before such work. That the aliases stay is one property of other tables among
all those that such work keeps; that the generation is never an earlier one is shown here.
-/

namespace Imageboard

open Work

namespace Store

/-- Registering a user is not behind. -/
theorem notBehind_findOrCreateUser (name : String) : Along NotBehind (findOrCreateUser name) := by
  refine (along_read _ _ _).bind fun found => ?_
  cases found with
  | some id => exact along_pure _
  | none => exact along_get.bind fun _ => notBehind_write _ _ _

/-- Making a tag is not behind. -/
theorem notBehind_findOrCreateTag (name : String) (category : Option Int) :
    Along NotBehind (findOrCreateTag name category) := by
  rw [findOrCreateTag]
  dsimp only
  split
  · exact along_throw_bind _ _
  · refine (along_read _ _ _).bind fun found => ?_
    cases found with
    | some tag => exact along_pure _
    | none => exact along_get.bind fun _ => notBehind_write _ _ _

/-- Giving a tag a category is not behind. -/
theorem notBehind_setTagCategory (id category : Int) :
    Along NotBehind (setTagCategory id category) :=
  along_get.bind fun _ => notBehind_write _ _ _

/-- Stamping posts is not behind. -/
theorem notBehind_touchPosts (ids : List Int) : Along NotBehind (touchPosts ids) :=
  along_get.bind fun _ => notBehind_write _ _ _

/-- Counting posts anew is not behind. -/
theorem notBehind_refreshPostCounts (ids : List Int) : Along NotBehind (refreshPostCounts ids) :=
  Along.guarded (along_get.bind fun _ => notBehind_write _ _ _)

/-- Stamping a post that changed is not behind. -/
theorem notBehind_touchIfChanged (postId : Int) (changes : Nat) :
    Along NotBehind (touchIfChanged postId changes) :=
  Along.ite ((notBehind_touchPosts _).bind fun _ => along_pure _) (along_pure _)

/-- Putting tags on a post one after the other is not behind. -/
theorem notBehind_addEach (postId : Int) (names : List String) :
    Along NotBehind (addEach postId names) := by
  induction names with
  | nil => exact along_pure _
  | cons name rest ih =>
    refine (notBehind_findOrCreateTag _ _).bind fun tag =>
      (notBehind_writeReferring _ _ _).bind fun added => ?_
    have hrest : Along NotBehind (do
        let more ← addEach postId rest
        return if added then more + 1 else more) := ih.bind fun _ => along_pure _
    exact Along.ite ((notBehind_write _ _ _).bind fun _ => hrest) hrest

/-- Taking tags off a post one after the other is not behind. -/
theorem notBehind_removeEach (postId : Int) (names : List String) :
    Along NotBehind (removeEach postId names) := by
  induction names with
  | nil => exact along_pure _
  | cons name rest ih =>
    refine (along_read _ _ _).bind fun found => ?_
    cases found with
    | none => exact ih
    | some tag =>
      refine (notBehind_writeReferring _ _ _).bind fun removed => ?_
      have hrest : Along NotBehind (do
          let more ← removeEach postId rest
          return if removed then more + 1 else more) := ih.bind fun _ => along_pure _
      exact Along.ite ((notBehind_write _ _ _).bind fun _ => hrest) hrest

/-- Putting tags on a post is not behind. -/
theorem notBehind_addPostTags (postId : Int) (names : List String) :
    Along NotBehind (addPostTags postId names) :=
  (notBehind_addEach _ _).bind fun _ => notBehind_touchIfChanged _ _

/-- Putting tags on the posts of another one is not behind. -/
theorem notBehind_copyToEach (source : Int) (names : List String) :
    Along NotBehind (copyToEach source names) := by
  induction names with
  | nil => exact along_pure _
  | cons name rest ih =>
    exact (notBehind_findOrCreateTag _ _).bind fun _ => (notBehind_writeReferring _ _ _).bind fun _ =>
      ih.bind fun _ => along_pure _

/-- Making a post is not behind. -/
theorem notBehind_createPost (draft : PostDraft) (names : List String) :
    Along NotBehind (createPost draft names) := by
  refine Along.atomic ?_ (setting_creation draft names)
  exact along_get.bind fun _ => (notBehind_writeReferring _ _ _).bind fun _ =>
    (notBehind_addPostTags _ _).bind fun _ => along_pure _

/-- Replacing a tag on all posts is not behind. -/
theorem notBehind_replaceTagOnPosts (oldName newName : String) :
    Along NotBehind (replaceTagOnPosts oldName newName) := by
  refine (along_read _ _ _).bind fun found => ?_
  cases found with
  | none => exact along_pure _
  | some old =>
    refine (notBehind_findOrCreateTag _ _).bind fun new =>
      (along_read _ _ _).bind fun postIds => Along.ite (along_pure _) ?_
    refine (Along.atomic ?_ (setting_replacement _ _ _)).bind fun _ => along_pure _
    exact (notBehind_writeReferring _ _ _).bind fun _ => (notBehind_writeReferring _ _ _).bind
      fun _ => (notBehind_refreshPostCounts _).bind fun _ => notBehind_touchPosts _

/-- Putting tags on all posts of another is not behind. -/
theorem notBehind_addTagsToPostsWith (antecedent : String) (names : List String) :
    Along NotBehind (addTagsToPostsWith antecedent names) := by
  refine (along_read _ _ _).bind fun found => ?_
  cases found with
  | none => exact along_pure _
  | some tag =>
    refine (along_read _ _ _).bind fun postIds => Along.ite (along_pure _) ?_
    refine (Along.atomic ?_ (setting_extension _ _ _)).bind fun _ => along_pure _
    exact (notBehind_copyToEach _ _).bind fun _ => (notBehind_refreshPostCounts _).bind fun _ =>
      notBehind_touchPosts _

/-! ## Following -/

/-- Work on posts and tags keeps the aliases. -/
theorem taggingKeeps_aliases (rs : List Relationship) : TaggingKeeps fun c => c.aliases = rs :=
  taggingKeeps_of_ignores fun _ _ _ _ _ hc => hc

/-- Changes of the tags of a single post keep the aliases. -/
theorem singlePostsKeep_aliases (rs : List Relationship) : SinglePostsKeep fun c => c.aliases = rs :=
  singlePostsKeep_of_ignores fun _ _ _ _ _ hc => hc

/-- A store follows when a user is registered. -/
theorem follows_findOrCreateUser (name : String) : Along Follows (findOrCreateUser name) :=
  (notBehind_findOrCreateUser _).follows fun rs => (taggingKeeps_aliases rs).findOrCreateUser _

/-- A store follows when a tag is made. -/
theorem follows_findOrCreateTag (name : String) (category : Option Int) :
    Along Follows (findOrCreateTag name category) :=
  (notBehind_findOrCreateTag _ _).follows fun rs => (taggingKeeps_aliases rs).findOrCreateTag _ _

/-- A store follows when a tag is given a category. -/
theorem follows_setTagCategory (id category : Int) : Along Follows (setTagCategory id category) :=
  (notBehind_setTagCategory _ _).follows fun rs => (taggingKeeps_aliases rs).setTagCategory _ _

/-- A store follows when tags are put on a post. -/
theorem follows_addPostTags (postId : Int) (names : List String) :
    Along Follows (addPostTags postId names) :=
  (notBehind_addPostTags _ _).follows fun rs => (singlePostsKeep_aliases rs).addPostTags _ _

/-- A store follows when tags are taken off a post. -/
theorem follows_removePostTags (postId : Int) (names : List String) :
    Along Follows (removePostTags postId names) :=
  Along.follows ((notBehind_removeEach _ _).bind fun _ => notBehind_touchIfChanged _ _)
    fun rs => (singlePostsKeep_aliases rs).removePostTags _ _

/-- A store follows when a post is made. -/
theorem follows_createPost (draft : PostDraft) (names : List String) :
    Along Follows (createPost draft names) :=
  (notBehind_createPost _ _).follows fun rs => (taggingKeeps_aliases rs).createPost _ _

/-- A store follows when a tag is replaced on all posts. -/
theorem follows_replaceTagOnPosts (oldName newName : String) :
    Along Follows (replaceTagOnPosts oldName newName) :=
  (notBehind_replaceTagOnPosts _ _).follows fun rs =>
    (taggingKeeps_aliases rs).replaceTagOnPosts _ _

/-- A store follows when tags are put on all posts of another. -/
theorem follows_addTagsToPostsWith (antecedent : String) (names : List String) :
    Along Follows (addTagsToPostsWith antecedent names) :=
  (notBehind_addTagsToPostsWith _ _).follows fun rs =>
    (taggingKeeps_aliases rs).addTagsToPostsWith _ _

/-- A store follows when all posts are counted anew. -/
theorem follows_regeneratePostCounts : Along Follows regeneratePostCounts := by
  refine Along.follows (notBehind_write _ _ _) fun rs => keeps_write fun c n d hc hd => ?_
  obtain ⟨-, rfl⟩ := Prod.mk.inj (Except.ok.inj hd)
  exact hc

end Store

/-! ## Fixtures -/

namespace Fixture

open Store

/-- A store follows when the tags of a row are prepared. -/
theorem follows_prepareTags (categories : Categories) (tokens : List String) :
    Along Follows (prepareTags categories tokens) := by
  induction tokens with
  | nil => exact along_pure _
  | cons token rest ih =>
    rw [prepareTags]
    rcases splitCategory categories token with ⟨name, code⟩
    dsimp only
    split
    · exact ih
    · cases code with
      | none => exact ih.bind fun _ => along_pure _
      | some code =>
        have hcategorize : Along Follows (categorize name code) :=
          (follows_findOrCreateTag _ _).bind fun _ => Along.guarded (follows_setTagCategory _ _)
        exact hcategorize.bind fun _ => ih.bind fun _ => along_pure _

/-- A store follows when the user of a row is registered. -/
theorem follows_userNamed (name : Option String) : Along Follows (userNamed name) := by
  cases name with
  | none => exact along_pure _
  | some name =>
    exact Along.ite (along_pure _) ((follows_findOrCreateUser name).bind fun _ => along_pure _)

/-- A store follows when the posts of rows are made. -/
theorem follows_importEach (rows : List Row) : Along Follows (importEach rows) := by
  induction rows with
  | nil => exact along_pure _
  | cons r rest ih =>
    have hrow : Along Follows (importRow r) :=
      (follows_userNamed _).bind fun _ => (follows_userNamed _).bind fun _ => along_get.bind fun s =>
        (follows_prepareTags s.categories _).bind fun _ => (follows_createPost _ _).bind fun _ =>
          along_pure _
    exact Along.ite (hrow.bind fun _ => ih.bind fun _ => along_pure _) ih

end Fixture

end Imageboard
