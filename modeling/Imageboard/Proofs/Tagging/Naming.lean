import Imageboard.Proofs.Lookup
import Imageboard.Proofs.Tagging.Counts
import Mathlib.Data.Finset.Image

/-!
# Posts by the names of their tags

Seen from outside, a post carries names, and the ids by which taggings are kept do not matter. Where
the rules of the store for tags and taggings hold, a post carries a name exactly if there is a
tagging of it with the tag of that name, and the taggings of a tag are as many as the posts that
carry its name.
-/

namespace Imageboard.Contents

/-- The names of the tags of a post. -/
def tagNames (c : Contents) (postId : Int) : Finset String :=
  ((c.tagsOf postId).map (·.name)).toFinset

/-- The number of posts that carry a name. -/
def carrierCount (c : Contents) (name : String) : Nat :=
  c.posts.countP fun p => name ∈ c.tagNames p.id

/-- The post count of the tag with a name, zero if there is none. -/
def postCountOf (c : Contents) (name : String) : Int :=
  ((c.findTag? name).map (·.postCount)).getD 0

/-- The category of the tag with a name, the general one if there is none. -/
def categoryOf (c : Contents) (general : Int) (name : String) : Int :=
  ((c.findTag? name).map (·.category)).getD general

/-- What the store enforces on tags, posts and taggings: ids and names are distinct, no tagging is
there twice, and each is of a tag and a post that are there. -/
structure TagRules (c : Contents) : Prop extends TaggingRules c where
  tagIds : (c.tags.map (·.id)).Nodup
  tagNames : (c.tags.map (·.name)).Nodup
  postIds : (c.posts.map (·.id)).Nodup
  refersToPosts : ∀ g ∈ c.taggings, c.refersToPost g.postId

variable {c d : Contents} {t u : Tag} {name : String} {id postId : Int}

/-- The rules depend on the tags, the taggings and the ids of the posts only. -/
theorem TagRules.congr (h : c.TagRules) (htags : d.tags = c.tags) (htaggings : d.taggings = c.taggings)
    (hposts : d.posts.map (·.id) = c.posts.map (·.id)) : d.TagRules where
  distinct := htaggings ▸ h.distinct
  refers := by simpa only [refersToTag, htags, htaggings] using h.refers
  tagIds := htags ▸ h.tagIds
  tagNames := htags ▸ h.tagNames
  postIds := hposts ▸ h.postIds
  refersToPosts g hg := by
    have hrefers := h.refersToPosts g (htaggings ▸ hg)
    have hmem : g.postId ∈ d.posts.map (·.id) := by
      rw [hposts]
      simpa [refersToPost] using hrefers
    simpa [refersToPost] using hmem

/-- The names on posts depend on tags and taggings only. -/
theorem tagNames_congr (htags : d.tags = c.tags) (htaggings : d.taggings = c.taggings) :
    d.tagNames = c.tagNames := by
  funext postId
  have hid : d.tagWithId? = c.tagWithId? := by
    funext id
    simp only [tagWithId?, htags]
  simp only [tagNames, tagsOf, tagIdsOf, htaggings, hid]

/-! ## Tags by id and by name -/

/-- A tag is found by its id. -/
theorem TagRules.tagWithId?_eq_some_iff (h : c.TagRules) :
    c.tagWithId? id = some t ↔ t ∈ c.tags ∧ t.id = id :=
  find?_key_eq_some_iff h.tagIds

/-- A tag is found by its name if names are distinct. -/
theorem findTag?_eq_some_iff (hnames : (c.tags.map (·.name)).Nodup) :
    c.findTag? name = some t ↔ t ∈ c.tags ∧ t.name = name :=
  find?_key_eq_some_iff hnames

/-- A tag is found by its name. -/
theorem TagRules.findTag?_eq_some_iff (h : c.TagRules) :
    c.findTag? name = some t ↔ t ∈ c.tags ∧ t.name = name :=
  Contents.findTag?_eq_some_iff h.tagNames

/-- Two tags with one name have one id. -/
theorem TagRules.id_eq_iff (h : c.TagRules) (ht : t ∈ c.tags) (hu : u ∈ c.tags) :
    t.id = u.id ↔ t.name = u.name := by
  constructor <;> intro heq
  · rw [List.inj_on_of_nodup_map h.tagIds ht hu heq]
  · rw [List.inj_on_of_nodup_map h.tagNames ht hu heq]

/-- There is no tag of a name exactly if no tag has it. -/
theorem findTag?_eq_none_iff : c.findTag? name = none ↔ ∀ t ∈ c.tags, t.name ≠ name := by
  simp [findTag?]

/-! ## Names on posts -/

/-- A tag is on a post if a tagging says so. -/
theorem TagRules.mem_tagsOf (h : c.TagRules) :
    t ∈ c.tagsOf postId ↔ t ∈ c.tags ∧ ⟨postId, t.id⟩ ∈ c.taggings := by
  simp only [tagsOf, tagIdsOf, List.mem_filterMap, List.mem_map, List.mem_filter,
    decide_eq_true_eq, h.tagWithId?_eq_some_iff]
  constructor
  · rintro ⟨-, ⟨g, ⟨hg, rfl⟩, rfl⟩, ht, hid⟩
    exact ⟨ht, hid ▸ hg⟩
  · rintro ⟨ht, hg⟩
    exact ⟨t.id, ⟨_, ⟨hg, rfl⟩, rfl⟩, ht, rfl⟩

/-- A post carries a name if a tagging of it is with a tag of that name. -/
theorem TagRules.mem_tagNames (h : c.TagRules) :
    name ∈ c.tagNames postId ↔ ∃ t ∈ c.tags, t.name = name ∧ ⟨postId, t.id⟩ ∈ c.taggings := by
  simp only [Contents.tagNames, List.mem_toFinset, List.mem_map, h.mem_tagsOf]
  exact exists_congr fun t => by tauto

/-- A post carries the name of a tag if there is a tagging of it with the tag. -/
theorem TagRules.name_mem_tagNames (h : c.TagRules) (ht : t ∈ c.tags) :
    t.name ∈ c.tagNames postId ↔ ⟨postId, t.id⟩ ∈ c.taggings := by
  rw [h.mem_tagNames]
  constructor
  · rintro ⟨u, hu, hname, hg⟩
    rwa [(h.id_eq_iff hu ht).2 hname] at hg
  · exact fun hg => ⟨t, ht, rfl, hg⟩

/-- The posts that carry the name of a tag are those of its taggings. -/
theorem TagRules.postIdsWith_perm (h : c.TagRules) (ht : t ∈ c.tags) :
    (c.postIdsWith t.id).Perm ((c.posts.filter fun p => t.name ∈ c.tagNames p.id).map (·.id)) := by
  have hcarriers : ((c.posts.filter fun p => t.name ∈ c.tagNames p.id).map (·.id)).Nodup :=
    h.postIds.sublist (List.filter_sublist.map _)
  refine (List.perm_ext_iff_of_nodup (nodup_postIdsWith h.distinct _) hcarriers).2 fun id => ?_
  simp only [postIdsWith, List.mem_mergeSort, List.mem_map, List.mem_filter, decide_eq_true_eq,
    h.name_mem_tagNames ht]
  constructor
  · rintro ⟨g, ⟨hg, hid⟩, rfl⟩
    obtain ⟨p, hp, hpost⟩ : ∃ p ∈ c.posts, p.id = g.postId := by
      simpa [refersToPost] using h.refersToPosts g hg
    refine ⟨p, ⟨hp, ?_⟩, hpost⟩
    rw [hpost, ← hid]
    exact hg
  · rintro ⟨p, ⟨-, hg⟩, rfl⟩
    exact ⟨_, ⟨hg, rfl⟩, rfl⟩

/-- The taggings of a tag are as many as the posts that carry its name. -/
theorem TagRules.taggingCount_eq (h : c.TagRules) (ht : t ∈ c.tags) :
    c.taggingCount t.id = c.carrierCount t.name := by
  have hlength := (h.postIdsWith_perm ht).length_eq
  rw [postIdsWith, List.length_mergeSort, List.length_map, List.length_map, ← List.countP_eq_length_filter,
    ← List.countP_eq_length_filter] at hlength
  rw [taggingCount, carrierCount, hlength]

/-- The posts listed for a tag are as many as the posts that carry its name. -/
theorem TagRules.length_postIdsWith (h : c.TagRules) (ht : t ∈ c.tags) :
    (c.postIdsWith t.id).length = c.carrierCount t.name := by
  rw [(h.postIdsWith_perm ht).length_eq, List.length_map, ← List.countP_eq_length_filter, carrierCount]

/-- A name that no tag has is on no post. -/
theorem TagRules.carrierCount_eq_zero (h : c.TagRules) (hnone : c.findTag? name = none) :
    c.carrierCount name = 0 := by
  refine List.countP_eq_zero.2 fun p _ hmem => ?_
  obtain ⟨t, ht, hname, -⟩ := h.mem_tagNames.1 (of_decide_eq_true hmem)
  exact findTag?_eq_none_iff.1 hnone t ht hname

/-- If the post counts are right, that of a name is the number of posts that carry it. -/
theorem Counted.postCountOf_eq (hcounted : c.Counted) (h : c.TagRules) (name : String) :
    c.postCountOf name = c.carrierCount name := by
  rw [postCountOf]
  cases hfound : c.findTag? name with
  | none =>
    rw [h.carrierCount_eq_zero hfound]
    rfl
  | some t =>
    obtain ⟨ht, rfl⟩ := h.findTag?_eq_some_iff.1 hfound
    exact (hcounted t ht).trans (h.taggingCount_eq ht)

end Imageboard.Contents
