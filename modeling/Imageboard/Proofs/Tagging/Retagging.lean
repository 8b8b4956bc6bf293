import Imageboard.Proofs.Relationship.Moving
import Imageboard.Proofs.Store.Attaining
import Imageboard.Proofs.Tagging.Counting
import Imageboard.Proofs.Tagging.Naming

/-!
# Putting one tag name for another on posts

The work that replaces a tag on posts is given here as changes of the contents: a tag is made if its
name has none, a tag gets another category, and all taggings of one tag become taggings of another.
Each change is followed by what it does to the names on posts; the last one renames them.
-/

namespace Imageboard

/-- A name under which a tag can be stored. -/
structure TagName.Storable (name : String) : Prop where
  normal : TagName.normalize name = name
  ne : name ≠ ""

instance (name : String) : Decidable (TagName.Storable name) :=
  decidable_of_iff (TagName.normalize name = name ∧ name ≠ "") ⟨fun h => ⟨h.1, h.2⟩, fun h => ⟨h.1, h.2⟩⟩

namespace Contents

/-- The tag that is made for a name. -/
def freshTag (c : Contents) (name : String) (general : Int) (stamp : Value) : Tag :=
  ⟨nextId (c.tags.map (·.id)), name, general, 0, stamp, stamp⟩

/-- The contents with a tag of a name, which is made if there is none. -/
def withTag (c : Contents) (name : String) (general : Int) (stamp : Value) : Contents :=
  if (c.findTag? name).isSome then c else { c with tags := c.tags ++ [c.freshTag name general stamp] }

/-- The contents with another category for a tag. -/
def withCategory (c : Contents) (tagId category : Int) (stamp : Value) : Contents :=
  c.mapTags (·.id = tagId) fun t => { t with category := category, updatedAt := stamp }

/-- The taggings with one tag that posts with another one do not have yet. -/
def newTaggings (c : Contents) (oldId newId : Int) : List Tagging :=
  ((c.postIdsWith oldId).map (⟨·, newId⟩)).filter fun g => !c.taggings.contains g

/-- The contents with all taggings of one tag made into taggings of another. -/
def moveTaggings (c : Contents) (oldId newId : Int) : Contents :=
  { c with taggings := (c.taggings ++ c.newTaggings oldId newId).filter (·.tagId ≠ oldId) }

/-- The contents with one tag put for another on posts, if there are any with it. -/
def retag (c : Contents) (oldId newId : Int) (stamp : Value) : Contents :=
  if (c.postIdsWith oldId).isEmpty then c
  else ((c.moveTaggings oldId newId).recount [oldId, newId] stamp).touch (c.postIdsWith oldId) stamp

variable {c : Contents} {t old new : Tag} {name other : String} {general : Int} {stamp : Value}

/-! ## Making tags -/

/-- Making a tag changes the tags only. -/
theorem withTag_eq : c.withTag name general stamp =
    { c with tags := (c.withTag name general stamp).tags } := by
  unfold withTag
  split <;> rfl

/-- Tags of other names are as before. -/
theorem findTag?_withTag_of_ne (hne : other ≠ name) :
    (c.withTag name general stamp).findTag? other = c.findTag? other := by
  unfold withTag
  split
  · rfl
  · simp [findTag?, freshTag, hne.symm]

/-- Tags that are there are found where they were. -/
theorem findTag?_withTag_of_some (hfound : c.findTag? other = some t) :
    (c.withTag name general stamp).findTag? other = some t := by
  by_cases hother : other = name
  · subst hother
    rw [withTag, hfound, Option.isSome_some, if_pos rfl, hfound]
  · rw [findTag?_withTag_of_ne hother, hfound]

/-- A tag that is not there is made. -/
theorem findTag?_withTag_of_none (hnone : c.findTag? name = none) :
    (c.withTag name general stamp).findTag? name = some (c.freshTag name general stamp) := by
  have hnone' := hnone
  unfold findTag? at hnone'
  simp [withTag, findTag?, List.find?_append, hnone', freshTag]

/-- There is a tag of a name after one was made for it. -/
theorem exists_findTag?_withTag (c : Contents) (name : String) (general : Int) (stamp : Value) :
    ∃ t, (c.withTag name general stamp).findTag? name = some t := by
  cases hfound : c.findTag? name with
  | none => exact ⟨_, findTag?_withTag_of_none hfound⟩
  | some t => exact ⟨t, findTag?_withTag_of_some hfound⟩

/-- A tag that is made is general, so no category has changed. -/
theorem categoryOf_withTag (other : String) :
    (c.withTag name general stamp).categoryOf general other = c.categoryOf general other := by
  by_cases hother : other = name
  · subst hother
    by_cases hfound : (c.findTag? other).isSome
    · rw [withTag, if_pos hfound]
    · have hnone : c.findTag? other = none := by simpa using hfound
      rw [categoryOf, categoryOf, findTag?_withTag_of_none hnone, hnone]
      rfl
  · rw [categoryOf, findTag?_withTag_of_ne hother, categoryOf]

/-- Making a tag keeps the rules. -/
theorem TagRules.withTag (h : c.TagRules) : (c.withTag name general stamp).TagRules := by
  unfold Contents.withTag
  split
  · exact h
  next hnone =>
    have hfree : ∀ u ∈ c.tags, u.name ≠ name := findTag?_eq_none_iff.1 (by simpa using hnone)
    constructor
    · refine ⟨h.distinct, fun g hg => ?_⟩
      have hrefers : c.tags.any (·.id = g.tagId) := h.refers g hg
      simp only [refersToTag, List.any_append, hrefers, Bool.true_or]
    · have hfresh : nextId (c.tags.map (·.id)) ∉ c.tags.map (·.id) := nextId_not_mem
      simp only [List.map_append, List.map_cons, List.map_nil]
      exact List.nodup_append_comm.1 (List.nodup_cons.2 ⟨hfresh, h.tagIds⟩)
    · have hnew : name ∉ c.tags.map (·.name) := by simpa using hfree
      simp only [List.map_append, List.map_cons, List.map_nil]
      exact List.nodup_append_comm.1 (List.nodup_cons.2 ⟨hnew, h.tagNames⟩)
    · exact h.postIds
    · exact h.refersToPosts

/-- A tag that is made is on no post. -/
theorem TagRules.tagNames_withTag (h : c.TagRules) :
    (c.withTag name general stamp).tagNames = c.tagNames := by
  funext postId
  ext x
  rw [h.withTag.mem_tagNames, h.mem_tagNames]
  unfold Contents.withTag
  split
  · rfl
  · constructor
    · rintro ⟨u, hu, hname, hg⟩
      rcases List.mem_append.1 hu with hu | hu
      · exact ⟨u, hu, hname, hg⟩
      · obtain rfl := List.mem_singleton.1 hu
        obtain ⟨v, hv, hid⟩ := refersToTag_iff.1 (h.refers _ hg)
        exact absurd (List.mem_map.2 ⟨v, hv, hid⟩) nextId_not_mem
    · rintro ⟨u, hu, hname, hg⟩
      exact ⟨u, List.mem_append_left _ hu, hname, hg⟩

/-! ## Changing tags -/

section MapTags

variable {p : Tag → Bool} {f : Tag → Tag}

/-- Tags that keep their names are found where they were. -/
theorem findTag?_mapTags (hname : ∀ t, (f t).name = t.name) (name : String) :
    (c.mapTags p f).findTag? name = (c.findTag? name).map fun t => if p t then f t else t := by
  unfold findTag? mapTags
  rw [List.find?_map]
  congr 2
  funext t
  dsimp only [Function.comp]
  split
  · rw [hname]
  · rfl

/-- Changes of tags that leave ids and names alone keep the rules. -/
theorem TagRules.mapTags' (h : c.TagRules) (hid : ∀ t, (f t).id = t.id)
    (hname : ∀ t, (f t).name = t.name) : (c.mapTags p f).TagRules := by
  have hids : (c.mapTags p f).tags.map (·.id) = c.tags.map (·.id) := map_tags_mapTags hid
  have hnames : (c.mapTags p f).tags.map (·.name) = c.tags.map (·.name) := map_tags_mapTags hname
  exact ⟨h.toTaggingRules.mapTags hid, hids ▸ h.tagIds, hnames ▸ h.tagNames, h.postIds, h.refersToPosts⟩

/-- Tags that keep their ids and names are on the same posts. -/
theorem TagRules.tagNames_mapTags (h : c.TagRules) (hid : ∀ t, (f t).id = t.id)
    (hname : ∀ t, (f t).name = t.name) : (c.mapTags p f).tagNames = c.tagNames := by
  funext postId
  ext x
  have hchanged (t : Tag) : (if p t then f t else t).id = t.id ∧
      (if p t then f t else t).name = t.name := by
    split
    · exact ⟨hid t, hname t⟩
    · exact ⟨rfl, rfl⟩
  rw [(h.mapTags' hid hname).mem_tagNames, h.mem_tagNames]
  simp only [Contents.mapTags, List.mem_map, exists_exists_and_eq_and, (hchanged _).1,
    (hchanged _).2]

/-- Changes of tags that leave names and categories alone change the category of no name. -/
theorem categoryOf_mapTags (hname : ∀ t, (f t).name = t.name)
    (hcategory : ∀ t, (f t).category = t.category) :
    (c.mapTags p f).categoryOf general = c.categoryOf general := by
  funext x
  rw [categoryOf, findTag?_mapTags hname, Option.map_map, categoryOf]
  congr 2
  funext t
  dsimp only [Function.comp]
  split
  · exact hcategory t
  · rfl

end MapTags

/-- The category of a name depends on the tags only. -/
theorem categoryOf_congr {d : Contents} (htags : d.tags = c.tags) :
    d.categoryOf general = c.categoryOf general := by
  funext x
  rw [categoryOf, categoryOf, findTag?, findTag?, htags]

/-- Giving a tag another category leaves the tags of other names as they are. -/
theorem TagRules.findTag?_withCategory (h : c.TagRules) (ht : t ∈ c.tags) {category : Int}
    (hother : name ≠ t.name) : (c.withCategory t.id category stamp).findTag? name = c.findTag? name := by
  rw [withCategory, findTag?_mapTags (by intro _; rfl)]
  cases hname : c.findTag? name with
  | none => rfl
  | some u =>
    obtain ⟨hu, rfl⟩ := h.findTag?_eq_some_iff.1 hname
    have hid : u.id ≠ t.id := fun hid => hother ((h.id_eq_iff hu ht).1 hid)
    simp [hid]

/-- A tag with its posts counted anew. -/
def recounted (c : Contents) (stamp : Value) (t : Tag) : Tag :=
  { t with postCount := c.taggingCount t.id, updatedAt := stamp }

/-- Tags that are counted anew are found where they were. -/
theorem findTag?_recount (c : Contents) (ids : List Int) (stamp : Value) (name : String) :
    (c.recount ids stamp).findTag? name =
      (c.findTag? name).map fun t => if ids.contains t.id then c.recounted stamp t else t :=
  findTag?_mapTags (by intro _; rfl) name

/-! ## Moving taggings -/

/-- A post is listed for a tag if there is a tagging of it. -/
theorem mem_postIdsWith {tagId postId : Int} :
    postId ∈ c.postIdsWith tagId ↔ ⟨postId, tagId⟩ ∈ c.taggings := by
  simp only [postIdsWith, List.mem_mergeSort, List.mem_map, List.mem_filter, decide_eq_true_eq]
  constructor
  · rintro ⟨k, ⟨hk, rfl⟩, rfl⟩
    exact hk
  · exact fun hk => ⟨_, ⟨hk, rfl⟩, rfl⟩

/-- What becomes of taggings when those of one tag are moved to another. -/
theorem mem_taggings_moveTaggings {oldId newId : Int} {g : Tagging} :
    g ∈ (c.moveTaggings oldId newId).taggings ↔
      g.tagId ≠ oldId ∧ (g ∈ c.taggings ∨ g.tagId = newId ∧ ⟨g.postId, oldId⟩ ∈ c.taggings) := by
  have hnew : g ∈ c.newTaggings oldId newId ↔
      (g.tagId = newId ∧ ⟨g.postId, oldId⟩ ∈ c.taggings) ∧ g ∉ c.taggings := by
    simp only [newTaggings, List.mem_filter, List.mem_map, mem_postIdsWith]
    constructor
    · rintro ⟨⟨id, hid, rfl⟩, hfresh⟩
      exact ⟨⟨rfl, hid⟩, by simpa using hfresh⟩
    · rintro ⟨⟨rfl, hid⟩, hfresh⟩
      exact ⟨⟨g.postId, hid, rfl⟩, by simpa using hfresh⟩
  simp only [moveTaggings, List.mem_filter, List.mem_append, hnew, decide_eq_true_eq]
  tauto

/-- Copied taggings refer to posts and a tag that are there. -/
theorem TagRules.copyTaggings_eq_ok (h : c.TagRules) (oldId : Int) (hnew : new ∈ c.tags) :
    c.copyTaggings oldId new.id = .ok { c with taggings := c.taggings ++ c.newTaggings oldId new.id } := by
  have hrefers : (c.newTaggings oldId new.id).all
      (taggingRefers { c with taggings := c.taggings ++ c.newTaggings oldId new.id }) := by
    refine List.all_eq_true.2 fun g hg => ?_
    obtain ⟨hmem, -⟩ := List.mem_filter.1 hg
    obtain ⟨id, hid, rfl⟩ := List.mem_map.1 hmem
    have hpost := h.refersToPosts _ (mem_postIdsWith.1 hid)
    have htag : c.refersToTag new.id := refersToTag_iff.2 ⟨new, hnew, rfl⟩
    exact (Bool.and_eq_true _ _).mpr ⟨hpost, htag⟩
  exact if_pos hrefers

/-- Moving taggings keeps the rules. -/
theorem TagRules.moveTaggings (h : c.TagRules) {oldId : Int} (hnew : new ∈ c.tags) :
    (c.moveTaggings oldId new.id).TagRules := by
  have hstart : CountedBut (c.tags.map (·.id)) c :=
    ⟨h.toTaggingRules, fun t ht hid => absurd (List.mem_map_of_mem ht) hid⟩
  have hcopied := hstart.copyTaggings (h.copyTaggings_eq_ok oldId hnew)
  have hmoved := hcopied.removeTaggingsOf oldId
  refine ⟨hmoved.toTaggingRules, h.tagIds, h.tagNames, h.postIds, fun g hg => ?_⟩
  obtain ⟨-, hg | ⟨-, hg⟩⟩ := mem_taggings_moveTaggings.1 hg
  · exact h.refersToPosts g hg
  · exact h.refersToPosts ⟨g.postId, oldId⟩ hg

/-- Moving taggings puts the name of one tag for that of the other on every post. -/
theorem TagRules.tagNames_moveTaggings (h : c.TagRules) (hold : old ∈ c.tags) (hnew : new ∈ c.tags)
    (hne : old.name ≠ new.name) (postId : Int) :
    (c.moveTaggings old.id new.id).tagNames postId =
      (c.tagNames postId).image (Store.renamed old.name new.name) := by
  ext x
  rw [(h.moveTaggings hnew).mem_tagNames]
  simp only [Finset.mem_image, h.mem_tagNames, mem_taggings_moveTaggings]
  constructor
  · rintro ⟨t, ht, rfl, hother, hg | ⟨hid, hg⟩⟩
    · have hname : t.name ≠ old.name := fun heq => hother ((h.id_eq_iff ht hold).2 heq)
      exact ⟨t.name, ⟨t, ht, rfl, hg⟩, Store.renamed_of_ne hname⟩
    · refine ⟨old.name, ⟨old, hold, rfl, hg⟩, ?_⟩
      rw [Store.renamed, if_pos rfl]
      exact ((h.id_eq_iff ht hnew).1 hid).symm
  · rintro ⟨y, ⟨t, ht, rfl, hg⟩, rfl⟩
    by_cases hname : t.name = old.name
    · have hid : t.id = old.id := (h.id_eq_iff ht hold).2 hname
      have hids : new.id ≠ old.id := fun heq => hne ((h.id_eq_iff hnew hold).1 heq).symm
      refine ⟨new, hnew, ?_, hids, Or.inr ⟨rfl, hid ▸ hg⟩⟩
      rw [Store.renamed, if_pos hname]
    · have hid : t.id ≠ old.id := fun heq => hname ((h.id_eq_iff ht hold).1 heq)
      exact ⟨t, ht, (Store.renamed_of_ne hname).symm, hid, Or.inl hg⟩

/-! ## Replacing a tag -/

/-- Replacing a tag changes tags, posts and taggings only. -/
theorem retag_eq {oldId newId : Int} : c.retag oldId newId stamp = { c with
    tags := (c.retag oldId newId stamp).tags
    posts := (c.retag oldId newId stamp).posts
    taggings := (c.retag oldId newId stamp).taggings } := by
  unfold retag
  split <;> rfl

variable (h : c.TagRules)
include h

/-- A post is listed for a tag if it carries its name. -/
theorem TagRules.mem_postIdsWith (ht : t ∈ c.tags) {postId : Int} :
    postId ∈ c.postIdsWith t.id ↔ t.name ∈ c.tagNames postId := by
  rw [h.name_mem_tagNames ht, Contents.mem_postIdsWith]

/-- A name that is on no post is not changed by putting another for it. -/
theorem TagRules.image_of_isEmpty (hold : old ∈ c.tags) (hempty : (c.postIdsWith old.id).isEmpty)
    (newName : String) (postId : Int) :
    (c.tagNames postId).image (Store.renamed old.name newName) = c.tagNames postId := by
  have habsent : old.name ∉ c.tagNames postId := by
    rw [← h.mem_postIdsWith hold, List.isEmpty_iff.1 hempty]
    exact List.not_mem_nil
  have hsame : ∀ x ∈ c.tagNames postId, Store.renamed old.name newName x = x :=
    fun x hx => Store.renamed_of_ne fun heq => habsent (heq ▸ hx)
  rw [Finset.image_congr hsame, Finset.image_id']

/-- Replacing a tag keeps the rules. -/
theorem TagRules.retag (oldId : Int) (hnew : new ∈ c.tags) : (c.retag oldId new.id stamp).TagRules := by
  unfold Contents.retag
  split
  · exact h
  · have hrecounted : ((c.moveTaggings oldId new.id).recount [oldId, new.id] stamp).TagRules :=
      (h.moveTaggings hnew).mapTags' (by intro _; rfl) (by intro _; rfl)
    refine hrecounted.congr rfl rfl ?_
    simp only [touch, mapPosts, List.map_map]
    refine List.map_congr_left fun p _ => ?_
    dsimp only [Function.comp]
    split <;> rfl

/-- Replacing a tag puts the name of the other for its name on every post. -/
theorem TagRules.tagNames_retag (hold : old ∈ c.tags) (hnew : new ∈ c.tags)
    (hne : old.name ≠ new.name) (postId : Int) :
    (c.retag old.id new.id stamp).tagNames postId =
      (c.tagNames postId).image (Store.renamed old.name new.name) := by
  unfold Contents.retag
  split
  next hempty => exact (h.image_of_isEmpty hold hempty new.name postId).symm
  next =>
    have hrecounted : ((c.moveTaggings old.id new.id).recount [old.id, new.id] stamp).tagNames =
        (c.moveTaggings old.id new.id).tagNames :=
      (h.moveTaggings hnew).tagNames_mapTags (by intro _; rfl) (by intro _; rfl)
    exact (congrFun hrecounted postId).trans (h.tagNames_moveTaggings hold hnew hne postId)

/-- Replacing a tag leaves the tags of other names as they are. -/
theorem TagRules.findTag?_retag (hold : old ∈ c.tags) (hnew : new ∈ c.tags) (hother : name ≠ old.name)
    (hother' : name ≠ new.name) :
    (c.retag old.id new.id stamp).findTag? name = c.findTag? name := by
  unfold Contents.retag
  split
  · rfl
  · refine (findTag?_recount (c.moveTaggings old.id new.id) [old.id, new.id] stamp name).trans ?_
    change (c.findTag? name).map _ = c.findTag? name
    cases hname : c.findTag? name with
    | none => rfl
    | some t =>
      obtain ⟨ht, rfl⟩ := h.findTag?_eq_some_iff.1 hname
      have hids : ¬ [old.id, new.id].contains t.id = true := by
        simp [h.id_eq_iff ht hold, h.id_eq_iff ht hnew, hother, hother']
      rw [Option.map_some, if_neg hids]

/-- Replacing a tag stamps the posts that carried it. -/
theorem TagRules.posts_retag (hold : old ∈ c.tags) (newId : Int) :
    (c.retag old.id newId stamp).posts = c.posts.map fun p =>
      if old.name ∈ c.tagNames p.id then { p with updatedAt := stamp } else p := by
  have hmapped : c.posts.map (fun p => if (c.postIdsWith old.id).contains p.id then
      { p with updatedAt := stamp } else p) = c.posts.map fun p =>
        if old.name ∈ c.tagNames p.id then { p with updatedAt := stamp } else p := by
    refine List.map_congr_left fun p _ => ?_
    simp only [List.contains_iff_mem, h.mem_postIdsWith hold]
  unfold Contents.retag
  split
  next hempty =>
    rw [← hmapped, List.isEmpty_iff.1 hempty]
    simp
  next => exact hmapped

omit h in
/-- Replacing a tag leaves the categories of all names as they are. -/
theorem categoryOf_retag {oldId newId : Int} (name : String) :
    (c.retag oldId newId stamp).categoryOf general name = c.categoryOf general name := by
  unfold Contents.retag
  split
  · rfl
  · have hrecount : ((c.moveTaggings oldId newId).recount [oldId, newId] stamp).categoryOf general =
        (c.moveTaggings oldId newId).categoryOf general :=
      categoryOf_mapTags (by intro _; rfl) (by intro _; rfl)
    exact congrFun (((categoryOf_congr rfl).trans hrecount).trans (categoryOf_congr rfl)) name

end Contents

end Imageboard
