import Imageboard.Proofs.Store.Undating
import Imageboard.Proofs.Tagging.Keeping

/-!
# Work on tags that comes to the same in two stores

Finding and making tags, counting their posts and putting tags on the posts of other tags comes to the
same in stores that are alike. A tag that is found or made is the same but for its stamps.
-/

namespace Imageboard.Store

open Work Contents

/-- Tags that are the same but for their stamps have the same id. -/
theorem id_eq_of_undated_eq {a b : Tag} (h : a.undated = b.undated) : a.id = b.id :=
  (congrArg Tag.id h :)

/-- A tag is found or not in both stores. -/
theorem mirrors_getTag (name : String) :
    Mirrors (Option.map Tag.undated) (getTag name) (getTag name) :=
  mirrors_read _ _ (·.findTag? name) fun c => findTag?_undated c name

/-- The posts that carry a tag are the same in both stores. -/
theorem mirrors_postIdsWithTag (name : String) :
    MirrorsExactly (postIdsWithTag name) (postIdsWithTag name) := by
  refine mirrors_read _ _ (fun c => (c.findTag? name).elim [] fun t => c.postIdsWith t.id) fun c => ?_
  rw [findTag?_undated]
  cases c.findTag? name <;> rfl

/-- A tag is found or made in both stores. -/
theorem mirrors_findOrCreateTag (name : String) (category : Option Int) :
    Mirrors Tag.undated (findOrCreateTag name category) (findOrCreateTag name category) := by
  rw [findOrCreateTag]
  dsimp only
  split
  · exact mirrors_throw_bind _ _ _
  · refine (mirrors_getTag _).bindOption (Mirrors.getBind fun s t hst => ?_) fun a b h =>
      mirrors_pure h
    rw [hst.categories]
    exact mirrors_write (Contents.addTag _ _ .null) (undatedOutcome_addTag _ _ s.stamp)
      (undatedOutcome_addTag _ _ t.stamp) _ _

/-- A tag is given a category in both stores. -/
theorem mirrors_setTagCategory (tagId category : Int) :
    MirrorsExactly (setTagCategory tagId category) (setTagCategory tagId category) :=
  Mirrors.getBind fun _ _ _ => mirrors_update
    (·.mapTags (·.id = tagId) fun t => { t with category := category, updatedAt := .null })
    (fun _ => undated_mapTags (fun _ => rfl) fun _ => rfl)
    (fun _ => undated_mapTags (fun _ => rfl) fun _ => rfl) _ _

/-- The posts of tags are counted anew in both stores. -/
theorem mirrors_refreshPostCounts (tagIds : List Int) :
    MirrorsExactly (refreshPostCounts tagIds) (refreshPostCounts tagIds) :=
  Mirrors.ite (fun _ => Mirrors.getBind fun s t _ => mirrors_update (·.recount tagIds .null)
    (undated_recount tagIds s.stamp) (undated_recount tagIds t.stamp) _ _) fun _ => mirrors_pure rfl

/-- Posts are stamped in both stores. -/
theorem mirrors_touchPosts (postIds : List Int) :
    MirrorsExactly (touchPosts postIds) (touchPosts postIds) :=
  Mirrors.getBind fun s t _ => mirrors_update (·.touch postIds .null)
    (undated_touch postIds s.stamp) (undated_touch postIds t.stamp) _ _

/-- A tag is put on the posts of another in both stores. -/
theorem mirrors_copyTaggings (source target : Int) :
    MirrorsExactly (copyTaggings source target) (copyTaggings source target) := by
  have hcopy : ∀ c : Contents, undatedOutcome id ((c.copyTaggings source target).map ((), ·)) =
      (c.undated.copyTaggings source target).map ((), ·) := by
    intro c
    rw [← map_undated_copyTaggings]
    cases c.copyTaggings source target <;> rfl
  exact mirrors_writeReferring (fun c => (c.copyTaggings source target).map ((), ·)) hcopy hcopy _ _

/-- A tag is taken off all posts in both stores. -/
theorem mirrors_removeTaggingsOf (tagId : Int) :
    MirrorsExactly (removeTaggingsOf tagId) (removeTaggingsOf tagId) :=
  mirrors_writeReferring (fun c => .ok ((), { c with taggings := c.taggings.filter (·.tagId ≠ tagId) }))
    (fun _ => rfl) (fun _ => rfl) _ _

/-- A tag is replaced on posts in both stores. -/
theorem mirrors_replaceTagOnPosts (oldName newName : String) :
    MirrorsExactly (replaceTagOnPosts oldName newName) (replaceTagOnPosts oldName newName) := by
  refine (mirrors_getTag oldName).bindOption (mirrors_pure rfl) fun a b hab => ?_
  have hid := id_eq_of_undated_eq hab
  have hname : a.name = b.name := (congrArg Tag.name hab :)
  dsimp only
  rw [hid, hname]
  refine (mirrors_findOrCreateTag newName none).bind fun a' b' hab' => ?_
  have hid' := id_eq_of_undated_eq hab'
  rw [hid']
  refine (mirrors_postIdsWithTag b.name).bindSame fun postIds =>
    Mirrors.ite (fun _ => mirrors_pure rfl) fun _ => ?_
  refine (Mirrors.atomic (setting_replacement _ _ _) (setting_replacement _ _ _) ?_).bindSame
    fun _ => mirrors_pure rfl
  exact (mirrors_copyTaggings _ _).bindSame fun _ => (mirrors_removeTaggingsOf _).bindSame fun _ =>
    (mirrors_refreshPostCounts _).bindSame fun _ => mirrors_touchPosts _

/-- Tags are put on the posts of another in both stores. -/
theorem mirrors_copyToEach (source : Int) (names : List String) :
    MirrorsExactly (copyToEach source names) (copyToEach source names) := by
  induction names with
  | nil => exact mirrors_pure rfl
  | cons name rest ih =>
    refine (mirrors_findOrCreateTag name none).bind fun a b hab => ?_
    rw [id_eq_of_undated_eq hab]
    exact (mirrors_copyTaggings _ _).bindSame fun _ => ih.bindSame fun _ => mirrors_pure rfl

/-- Tags are put on the posts of another, which are counted, in both stores. -/
theorem mirrors_addTagsToPostsWith (antecedent : String) (names : List String) :
    MirrorsExactly (addTagsToPostsWith antecedent names) (addTagsToPostsWith antecedent names) := by
  refine (mirrors_getTag antecedent).bindOption (mirrors_pure rfl) fun a b hab => ?_
  have hname : a.name = b.name := (congrArg Tag.name hab :)
  dsimp only
  rw [id_eq_of_undated_eq hab, hname]
  refine (mirrors_postIdsWithTag b.name).bindSame fun postIds =>
    Mirrors.ite (fun _ => mirrors_pure rfl) fun _ => ?_
  refine (Mirrors.atomic (setting_extension _ _ _) (setting_extension _ _ _) ?_).bindSame
    fun _ => mirrors_pure rfl
  exact (mirrors_copyToEach _ _).bindSame fun _ => (mirrors_refreshPostCounts _).bindSame fun _ =>
    mirrors_touchPosts _

end Imageboard.Store
