import Imageboard.Proofs.Tagging.Retagging

/-!
# The work that puts one tag for another

Each step of the work that replaces a tag on posts succeeds on tables that are there, for names that
can be stored, and leaves the contents that are given for it.
-/

namespace Imageboard

namespace Store

open Work Contents

variable {s₀ : Store} {c : Contents} {name oldName newName : String}

/-- A tag with a name that can be stored is found or made. -/
theorem attains_findOrCreateTag (hwhole : c.missing = []) (hname : TagName.Storable name)
    (hgeneral : (Value.integer s₀.categories.generalCode).fits) :
    Attains s₀ c (findOrCreateTag name none) fun t d =>
      d = c.withTag name s₀.categories.generalCode s₀.stamp ∧ d.findTag? name = some t := by
  have hnonempty : ¬ (TagName.normalize name).isEmpty = true := by
    rw [hname.normal, String.isEmpty_iff]
    exact hname.ne
  rw [findOrCreateTag]
  dsimp only
  rw [if_neg hnonempty, hname.normal]
  refine (attains_read hwhole rfl _).bind ?_
  rintro found d ⟨hfound, rfl⟩
  cases found with
  | some t =>
    refine attains_pure ⟨?_, hfound.symm⟩
    simp [withTag, ← hfound]
  | none =>
    refine attains_get.bind ?_
    rintro s d ⟨hs, rfl⟩
    have hfree : d.tags.any (·.name = name) = false :=
      List.any_eq_false.2 fun t ht => by simpa using findTag?_eq_none_iff.1 hfound.symm t ht
    have hadded : d.addTag name s.categories.generalCode s.stamp =
        .ok (d.freshTag name s.categories.generalCode s.stamp,
          { d with tags := d.tags ++ [d.freshTag name s.categories.generalCode s.stamp] }) := by
      rw [addTag, hfree]
      rfl
    have hfits : [Value.integer s.categories.generalCode].all Value.fits := by
      simpa [hs.categories] using hgeneral
    refine (attains_write hwhole hfits hadded).imp ?_
    rintro t e ⟨rfl, rfl⟩
    have hnone := hfound.symm
    constructor
    · rw [withTag, hnone, hs.categories, hs.stamp]
      rfl
    · unfold findTag? at hnone ⊢
      simp [List.find?_append, hnone, freshTag]

/-- A tag gets another category. -/
theorem attains_setTagCategory (hwhole : c.missing = []) {tagId category : Int}
    (hcategory : (Value.integer category).fits) (hid : (Value.integer tagId).fits) :
    Attains s₀ c (setTagCategory tagId category) fun _ d => d = c.withCategory tagId category s₀.stamp := by
  refine attains_get.bind ?_
  rintro s d ⟨hs, rfl⟩
  have hfits : [Value.integer category, Value.integer tagId].all Value.fits := by
    simp [hcategory, hid]
  refine (attains_write hwhole hfits rfl).imp ?_
  rintro ⟨⟩ e ⟨-, rfl⟩
  rw [hs.stamp, withCategory]

/-- The taggings of a tag are copied to another that is there. -/
theorem attains_copyTaggings (hwhole : c.missing = []) (h : c.TagRules) {oldId : Int} {new : Tag}
    (hnew : new ∈ c.tags) (hold : (Value.integer oldId).fits) (hid : (Value.integer new.id).fits) :
    Attains s₀ c (copyTaggings oldId new.id) fun _ d =>
      d = { c with taggings := c.taggings ++ c.newTaggings oldId new.id } := by
  have hfits : [Value.integer new.id, Value.integer oldId].all Value.fits := by
    simp [hold, hid]
  have hcopied : (c.copyTaggings oldId new.id).map ((), ·) =
      .ok ((), { c with taggings := c.taggings ++ c.newTaggings oldId new.id }) := by
    rw [h.copyTaggings_eq_ok oldId hnew]
    rfl
  exact (attains_writeReferring hwhole hfits hcopied).imp fun _ _ hd => hd.2

/-- A tag is taken off all posts. -/
theorem attains_removeTaggingsOf (hwhole : c.missing = []) {tagId : Int}
    (hid : (Value.integer tagId).fits) :
    Attains s₀ c (removeTaggingsOf tagId) fun _ d =>
      d = { c with taggings := c.taggings.filter (·.tagId ≠ tagId) } := by
  have hfits : [Value.integer tagId].all Value.fits := by
    simp [hid]
  exact (attains_writeReferring hwhole hfits rfl).imp fun _ _ hd => hd.2

/-- The posts of some tags are counted anew. -/
theorem attains_refreshPostCounts (hwhole : c.missing = []) {ids : List Int} (hids : ids ≠ []) :
    Attains s₀ c (refreshPostCounts ids) fun _ d => d = c.recount ids s₀.stamp := by
  have hsome : (!ids.isEmpty) = true := by
    simpa using hids
  rw [refreshPostCounts, if_pos hsome]
  refine attains_get.bind ?_
  rintro s d ⟨hs, rfl⟩
  refine (attains_write hwhole rfl rfl).imp ?_
  rintro ⟨⟩ e ⟨-, rfl⟩
  rw [hs.stamp]

/-- Some posts are stamped. -/
theorem attains_touchPosts (hwhole : c.missing = []) {postIds : List Int}
    (hposts : ∀ id ∈ postIds, (Value.integer id).fits) :
    Attains s₀ c (touchPosts postIds) fun _ d => d = c.touch postIds s₀.stamp := by
  have hfits : (postIds.map Value.integer).all Value.fits := by
    simpa using hposts
  refine attains_get.bind ?_
  rintro s d ⟨hs, rfl⟩
  refine (attains_write hwhole hfits rfl).imp ?_
  rintro ⟨⟩ e ⟨-, rfl⟩
  rw [hs.stamp]

/-- The block that replaces a tag on posts moves its taggings, counts anew and stamps the posts. -/
theorem attains_replacement (hwhole : c.missing = []) (h : c.TagRules) {oldId : Int} {new : Tag}
    (hnew : new ∈ c.tags) (hold : (Value.integer oldId).fits) (hid : (Value.integer new.id).fits)
    {postIds : List Int} (hposts : ∀ id ∈ postIds, (Value.integer id).fits) :
    Attains s₀ c (do
      copyTaggings oldId new.id
      removeTaggingsOf oldId
      refreshPostCounts [oldId, new.id]
      touchPosts postIds) fun _ d =>
      d = ((c.moveTaggings oldId new.id).recount [oldId, new.id] s₀.stamp).touch postIds s₀.stamp := by
  refine (attains_copyTaggings hwhole h hnew hold hid).bind ?_
  rintro ⟨⟩ d rfl
  refine (attains_removeTaggingsOf (by exact hwhole) hold).bind ?_
  rintro ⟨⟩ d rfl
  refine (attains_refreshPostCounts (by exact hwhole) (List.cons_ne_nil _ _)).bind ?_
  rintro ⟨⟩ d rfl
  exact attains_touchPosts (by exact hwhole) hposts

/-- Replacing a tag by another, which is made if it is not there, replaces it on all posts and counts
them. -/
theorem attains_replaceTagOnPosts_made (hwhole : c.missing = []) (h : c.TagRules) {old new : Tag}
    (hold : c.findTag? oldName = some old)
    (hnew : (c.withTag newName s₀.categories.generalCode s₀.stamp).findTag? newName = some new)
    (hname : TagName.Storable newName) (hgeneral : (Value.integer s₀.categories.generalCode).fits)
    (hfits : (Value.integer old.id).fits) (hfits' : (Value.integer new.id).fits)
    (hposts : ∀ p ∈ c.posts, (Value.integer p.id).fits) :
    Attains s₀ c (replaceTagOnPosts oldName newName) fun n d => n = c.carrierCount oldName ∧
      d = (c.withTag newName s₀.categories.generalCode s₀.stamp).retag old.id new.id s₀.stamp := by
  obtain ⟨holdMem, rfl⟩ := h.findTag?_eq_some_iff.1 hold
  have hrules : (c.withTag newName s₀.categories.generalCode s₀.stamp).TagRules := h.withTag
  have hold' : (c.withTag newName s₀.categories.generalCode s₀.stamp).findTag? old.name = some old :=
    findTag?_withTag_of_some hold
  obtain ⟨hnewMem, -⟩ := hrules.findTag?_eq_some_iff.1 hnew
  have hlength : (c.postIdsWith old.id).length = c.carrierCount old.name :=
    h.length_postIdsWith holdMem
  have hlisted : (c.withTag newName s₀.categories.generalCode s₀.stamp).postIdsWith old.id =
      c.postIdsWith old.id := by
    rw [withTag_eq]
    rfl
  have hwhole' : (c.withTag newName s₀.categories.generalCode s₀.stamp).missing = [] := by
    rw [withTag_eq]
    exact hwhole
  refine (attains_read hwhole rfl _).bind ?_
  rintro found d ⟨rfl, rfl⟩
  rw [hold]
  refine (attains_findOrCreateTag hwhole hname hgeneral).bind ?_
  rintro t e ⟨rfl, ht⟩
  obtain rfl := Option.some.inj (hnew.symm.trans ht)
  refine (attains_read hwhole' rfl _).bind ?_
  rintro postIds e ⟨hids, rfl⟩
  rw [hold'] at hids
  obtain rfl : postIds = d.postIdsWith old.id := hids.trans hlisted
  refine Attains.ite (fun hempty => ?_) fun hsome => ?_
  · have hnone : d.carrierCount old.name = 0 := by
      rw [← hlength, List.isEmpty_iff.1 hempty]
      rfl
    exact attains_pure ⟨by rw [hnone]; rfl, by rw [retag, hlisted, if_pos hempty]⟩
  · have hfit : ∀ id ∈ d.postIdsWith old.id, (Value.integer id).fits := by
      intro id hid
      obtain ⟨p, hp, rfl⟩ : ∃ p ∈ d.posts, p.id = id := by
        simpa [refersToPost] using h.refersToPosts _ (mem_postIdsWith.1 hid)
      exact hposts p hp
    refine Attains.bind (Attains.atomic (setting_replacement old.id new.id (d.postIdsWith old.id))
      (attains_replacement hwhole' hrules hnewMem hfits hfits' hfit)) ?_
    rintro ⟨⟩ e rfl
    exact attains_pure ⟨by rw [hlength], by rw [retag, hlisted, if_neg hsome]⟩

/-- Replacing a tag by another that is there replaces it on all posts and counts them. -/
theorem attains_replaceTagOnPosts (hwhole : c.missing = []) (h : c.TagRules) {old new : Tag}
    (hold : c.findTag? oldName = some old) (hnew : c.findTag? newName = some new)
    (hname : TagName.Storable newName) (hgeneral : (Value.integer s₀.categories.generalCode).fits)
    (hfits : (Value.integer old.id).fits) (hfits' : (Value.integer new.id).fits)
    (hposts : ∀ p ∈ c.posts, (Value.integer p.id).fits) :
    Attains s₀ c (replaceTagOnPosts oldName newName) fun n d =>
      n = c.carrierCount oldName ∧ d = c.retag old.id new.id s₀.stamp := by
  have hsame : c.withTag newName s₀.categories.generalCode s₀.stamp = c := by
    rw [withTag, hnew, Option.isSome_some, if_pos rfl]
  have hmade : Attains s₀ c (replaceTagOnPosts oldName newName) _ :=
    attains_replaceTagOnPosts_made hwhole h hold (hsame.symm ▸ hnew) hname hgeneral hfits hfits' hposts
  rwa [hsame] at hmade

end Store

end Imageboard
