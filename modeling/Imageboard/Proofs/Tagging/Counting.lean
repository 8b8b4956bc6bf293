import Imageboard.Proofs.Tagging.Interrupting

/-!
# Work that keeps post counts right

Tags are put on many posts at once with a recount behind it, and a new post gets its tags one by one, with a
shift of the count for each. All this is done in blocks, which are taken back if a step of them fails, so
between a change of taggings and the mending of the count nothing can end that stays done.
-/

namespace Imageboard.Store

open Work Contents

variable {ids : List Int}

/-- A new post has no tags yet, so adding it keeps the counts right. -/
theorem keeps_addPost_counted (draft : PostDraft) (stamp : Value) :
    Keeps (CountedBut ids) (writeReferring .posts draft.bound (Contents.addPost draft stamp)) := by
  refine keeps_writeReferring fun c a d hc hd => ?_
  obtain ⟨-, rfl⟩ := addPost_eq_ok hd
  exact hc.congr rfl rfl

/-! ## Tags on many posts -/

/-- Copying the taggings of a tag leads to counts that are right but for the other tag. -/
theorem leads_copyTaggings_counted (source target : Int) :
    Leads (CountedBut ids) (copyTaggings source target) fun _ => CountedBut (target :: ids) := by
  refine leads_writeReferring fun c a d hc hd => ?_
  rcases hcopy : c.copyTaggings source target with e | after
  · rw [hcopy] at hd
    contradiction
  · rw [hcopy] at hd
    obtain ⟨-, rfl⟩ := Prod.mk.inj (Except.ok.inj hd)
    exact hc.copyTaggings hcopy

/-- Taking a tag off all posts leads to counts that are right but for that tag. -/
theorem leads_removeTaggingsOf_counted (tagId : Int) :
    Leads (CountedBut ids) (removeTaggingsOf tagId) fun _ => CountedBut (tagId :: ids) := by
  refine leads_writeReferring fun c a d hc hd => ?_
  obtain ⟨-, rfl⟩ := Prod.mk.inj (Except.ok.inj hd)
  exact hc.removeTaggingsOf tagId

/-- Counting the tags in question anew leads to right counts. -/
theorem leads_refreshPostCounts_counted (ids : List Int) :
    Leads (CountedBut ids) (refreshPostCounts ids) fun _ => CountedBut [] := by
  refine Leads.ite (fun _ => leads_get.bind fun s => leads_write fun c a d hc hd => ?_) fun hempty => ?_
  · obtain ⟨-, rfl⟩ := Prod.mk.inj (Except.ok.inj hd)
    exact hc.recount s.stamp
  · have hnil : ids = [] := by simpa using hempty
    subst hnil
    exact (keeps_pure _).leads

/-- Copying taggings to several tags leads to counts that are right but for the tags returned. -/
theorem leads_copyToEach_counted (source : Int) (names : List String) :
    Leads (CountedBut ids) (copyToEach source names) fun copied =>
      CountedBut (copied ++ ids) := by
  induction names generalizing ids with
  | nil => exact leads_pure (Q := fun copied => CountedBut (copied ++ ids)) []
  | cons name rest ih =>
    refine (keeps_findOrCreateTag_counted name none).leads.bind fun tag =>
      (leads_copyTaggings_counted source tag.id).bind fun _ => ih.bind fun more => ?_
    refine Leads.imp (leads_pure (Q := fun copied => CountedBut (copied ++ ids)) (tag.id :: more))
      (fun c hc => ?_) fun _ _ h => h
    refine ⟨hc.toTaggingRules, fun t ht hids => hc.counts t ht fun hmem => hids ?_⟩
    simp only [List.mem_append, List.mem_cons] at hmem ⊢
    tauto

/-- Replacing a tag by another on all posts keeps the counts right. -/
theorem keeps_replaceTagOnPosts_counted (oldName newName : String) :
    Keeps (CountedBut []) (replaceTagOnPosts oldName newName) := by
  refine (keeps_read ..).bind fun found => ?_
  cases found with
  | none => exact keeps_pure _
  | some old =>
    refine (keeps_findOrCreateTag_counted _ _).bind fun new =>
      (keeps_read ..).bind fun postIds => Keeps.ite (keeps_pure _) ?_
    refine Keeps.bind (Leads.keeps_atomic (setting_replacement old.id new.id postIds) ?_) fun _ =>
      keeps_pure _
    exact (leads_copyTaggings_counted old.id new.id).bind fun _ =>
      (leads_removeTaggingsOf_counted old.id).bind fun _ =>
        (leads_refreshPostCounts_counted [old.id, new.id]).bind fun _ =>
          (keeps_touchPosts_counted postIds).leads

/-- Putting tags on all posts of another keeps the counts right. -/
theorem keeps_addTagsToPostsWith_counted (antecedent : String) (names : List String) :
    Keeps (CountedBut []) (addTagsToPostsWith antecedent names) := by
  refine (keeps_read ..).bind fun found => ?_
  cases found with
  | none => exact keeps_pure _
  | some tag =>
    refine (keeps_read ..).bind fun postIds => Keeps.ite (keeps_pure _) ?_
    refine Keeps.bind (Leads.keeps_atomic (setting_extension tag.id names postIds) ?_) fun _ =>
      keeps_pure _
    refine (leads_copyToEach_counted tag.id names).bind fun copied => ?_
    rw [List.append_nil]
    exact (leads_refreshPostCounts_counted copied).bind fun _ =>
      (keeps_touchPosts_counted postIds).leads

/-- All work on posts and tags keeps the post counts right. -/
theorem taggingKeeps_counted : TaggingKeeps (CountedBut []) where
  findOrCreateUser := by
    refine keeps_findOrCreateUser fun c name stamp a d hc hd => ?_
    obtain ⟨-, rfl⟩ := addUser_eq_ok hd
    exact hc.congr rfl rfl
  findOrCreateTag := keeps_findOrCreateTag_counted
  setTagCategory := keeps_setTagCategory fun _ _ _ _ hc => hc.mapTags (fun _ => rfl) fun _ => rfl
  addPostTags := leads_addPostTags_counted
  removePostTags := leads_removePostTags_counted
  createPost draft names := by
    refine Leads.keeps_atomic (setting_creation draft names) ?_
    exact keeps_get.leads.bind fun s => (keeps_addPost_counted draft s.stamp).leads.bind fun id =>
      (leads_addPostTags_counted id names).bind fun _ => (keeps_pure _).leads
  replaceTagOnPosts := keeps_replaceTagOnPosts_counted
  addTagsToPostsWith := keeps_addTagsToPostsWith_counted

/-- Counting the posts of all tags anew succeeds on every store whose tables are there while changes are
allowed; it makes every count right and returns how many were wrong. -/
theorem runOn_regeneratePostCounts {others : Others} {s : Store} (h : Readable [.tags, .taggings] [] s)
    (hallowed : s.isRefused others = false) :
    regeneratePostCounts.runOn s others =
      (.ok ((s.contents.tags.countP s.contents.isMiscounted : Nat) : Int),
        { s with contents := s.contents.recountAll }) := by
  rw [regeneratePostCounts, runOn_write_of_readable h, runOn_change_of_allowed hallowed]

end Imageboard.Store
