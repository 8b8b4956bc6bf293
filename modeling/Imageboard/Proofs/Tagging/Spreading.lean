import Imageboard.Proofs.Tagging.HandingOn
import Imageboard.Proofs.Tagging.Replacing

/-!
# Putting tags on all posts of another

Some names are put on the posts that carry a given one: a tag is made for each name that has none, and
the taggings of the given tag are copied to it. A post that carries the given name gains those of the
names that it lacks and loses none, and the others stay as they are. This is followed name by name,
then through the block that counts anew and stamps the posts.
-/

namespace Imageboard

namespace Contents

variable {b c d : Contents} {t new : Tag} {name : String} {names more : List String} {general : Int}
  {stamp : Value}

/-- The contents after some names were put on the posts that carry a given one, before tags are counted
anew: tags and taggings have become more, and nothing else is different. -/
structure Spread (general : Int) (name : String) (names : List String) (c d : Contents) : Prop where
  rules : d.TagRules
  tags : c.tags ⊆ d.tags
  tagNames : ∀ postId x, x ∈ d.tagNames postId ↔
    x ∈ c.tagNames postId ∨ name ∈ c.tagNames postId ∧ x ∈ names
  categories : ∀ x, d.categoryOf general x = c.categoryOf general x
  elsewhere : { d with tags := c.tags, taggings := c.taggings } = c

/-- The contents after some names were put on the posts that carry a given one: these posts have gained
the names that they lacked and are stamped, and besides tags and taggings nothing else is different. -/
structure Extended (general : Int) (stamp : Value) (name : String) (names : List String)
    (c d : Contents) : Prop where
  tagNames : ∀ postId x, x ∈ d.tagNames postId ↔
    x ∈ c.tagNames postId ∨ name ∈ c.tagNames postId ∧ x ∈ names
  categories : ∀ x, d.categoryOf general x = c.categoryOf general x
  posts : d.posts = c.posts.map fun p =>
    if name ∈ c.tagNames p.id then { p with updatedAt := stamp } else p
  elsewhere : { d with tags := c.tags, posts := c.posts, taggings := c.taggings } = c

/-! ## One name -/

/-- What there is after the taggings of a tag were copied to another. -/
theorem mem_append_newTaggings {oldId newId : Int} {g : Tagging} :
    g ∈ c.taggings ++ c.newTaggings oldId newId ↔
      g ∈ c.taggings ∨ g.tagId = newId ∧ ⟨g.postId, oldId⟩ ∈ c.taggings := by
  simp only [newTaggings, List.mem_append, List.mem_filter, List.mem_map, mem_postIdsWith]
  constructor
  · rintro (hg | ⟨⟨id, hid, rfl⟩, -⟩)
    · exact Or.inl hg
    · exact Or.inr ⟨rfl, hid⟩
  · rintro (hg | ⟨rfl, hg⟩)
    · exact Or.inl hg
    · by_cases hmem : g ∈ c.taggings
      · exact Or.inl hmem
      · exact Or.inr ⟨⟨g.postId, hg, rfl⟩, by simpa using hmem⟩

/-- Copying taggings keeps the rules. -/
theorem TagRules.copied (h : c.TagRules) (oldId : Int) (hnew : new ∈ c.tags) :
    TagRules { c with taggings := c.taggings ++ c.newTaggings oldId new.id } := by
  have hstart : CountedBut (c.tags.map (·.id)) c :=
    ⟨h.toTaggingRules, fun t ht hid => absurd (List.mem_map_of_mem ht) hid⟩
  have hcopied := hstart.copyTaggings (h.copyTaggings_eq_ok oldId hnew)
  refine ⟨hcopied.toTaggingRules, h.tagIds, h.tagNames, h.postIds, fun g hg => ?_⟩
  rcases mem_append_newTaggings.1 hg with hg | ⟨-, hg⟩
  · exact h.refersToPosts g hg
  · exact h.refersToPosts ⟨g.postId, oldId⟩ hg

/-- Copying the taggings of a tag to another puts the name of the latter on the posts of the former. -/
theorem TagRules.spread_copied (h : c.TagRules) (ht : t ∈ c.tags) (hnew : new ∈ c.tags) :
    Spread general t.name [new.name] c
      { c with taggings := c.taggings ++ c.newTaggings t.id new.id } where
  rules := h.copied t.id hnew
  tags := List.Subset.refl _
  tagNames postId x := by
    rw [(h.copied t.id hnew).mem_tagNames, h.mem_tagNames, h.name_mem_tagNames ht]
    simp only [mem_append_newTaggings, List.mem_singleton]
    constructor
    · rintro ⟨u, hu, rfl, hg | ⟨hid, hg⟩⟩
      · exact Or.inl ⟨u, hu, rfl, hg⟩
      · exact Or.inr ⟨hg, (h.id_eq_iff hu hnew).1 hid⟩
    · rintro (⟨u, hu, rfl, hg⟩ | ⟨hg, rfl⟩)
      · exact ⟨u, hu, rfl, Or.inl hg⟩
      · exact ⟨new, hnew, rfl, Or.inr ⟨rfl, hg⟩⟩
  categories _ := rfl
  elsewhere := rfl

/-- Making a tag puts nothing on a post. -/
theorem TagRules.spread_withTag (h : c.TagRules) (name other : String) (stamp : Value) :
    Spread general name [] c (c.withTag other general stamp) where
  rules := h.withTag
  tags := by
    unfold Contents.withTag
    split
    · exact List.Subset.refl _
    · exact List.subset_append_left _ _
  tagNames postId x := by
    rw [h.tagNames_withTag]
    simp
  categories := categoryOf_withTag
  elsewhere := by rw [withTag_eq]

/-! ## Several names -/

/-- With no names there is nothing to put on posts. -/
theorem Spread.refl (h : c.TagRules) : Spread general name [] c c where
  rules := h
  tags := List.Subset.refl _
  tagNames postId x := by simp
  categories _ := rfl
  elsewhere := rfl

/-- Names that are put on posts one after the other are all put on them. -/
theorem Spread.trans (hbc : Spread general name names b c) (hcd : Spread general name more c d) :
    Spread general name (names ++ more) b d where
  rules := hcd.rules
  tags := List.Subset.trans hbc.tags hcd.tags
  tagNames postId x := by
    rw [hcd.tagNames, hbc.tagNames, hbc.tagNames, List.mem_append]
    tauto
  categories x := (hcd.categories x).trans (hbc.categories x)
  elsewhere := by
    have hlast := congrArg (fun e : Contents => { e with tags := b.tags, taggings := b.taggings })
      hcd.elsewhere
    exact hlast.trans hbc.elsewhere

/-- Putting names on posts changes no post. -/
theorem Spread.posts (h : Spread general name names c d) : d.posts = c.posts :=
  (congrArg Contents.posts h.elsewhere :)

/-- Putting names on posts takes no table away. -/
theorem Spread.missing (h : Spread general name names c d) : d.missing = c.missing :=
  (congrArg Contents.missing h.elsewhere :)

/-- Counting tags anew and stamping the posts that carry the name completes putting names on posts. -/
theorem Spread.extended (h : Spread general name names c d) (hc : c.TagRules) (ht : t ∈ c.tags)
    (hname : t.name = name) (ids : List Int) :
    Extended general stamp name names c ((d.recount ids stamp).touch (c.postIdsWith t.id) stamp) where
  tagNames postId x := by
    have hcounted : (d.recount ids stamp).tagNames = d.tagNames :=
      h.rules.tagNames_mapTags (by intro _; rfl) (by intro _; rfl)
    have htouched : ((d.recount ids stamp).touch (c.postIdsWith t.id) stamp).tagNames =
        (d.recount ids stamp).tagNames := tagNames_congr rfl rfl
    rw [htouched, hcounted, h.tagNames]
  categories x := by
    rw [← h.categories, categoryOf, categoryOf]
    change (((d.recount ids stamp).findTag? x).map _).getD _ = _
    rw [findTag?_recount, Option.map_map]
    congr 2
    funext u
    dsimp only [Function.comp]
    split <;> rfl
  posts := by
    change d.posts.map _ = _
    rw [h.posts]
    refine List.map_congr_left fun p _ => ?_
    simp only [List.contains_iff_mem, hc.mem_postIdsWith ht, hname]
  elsewhere :=
    (congrArg (fun e : Contents => { e with posts := c.posts }) h.elsewhere :)

/-- Tags that are made beforehand make no difference to putting names on posts. -/
theorem Extended.of_spread (hbc : Spread general name [] b c)
    (hcd : Extended general stamp name names c d) : Extended general stamp name names b d := by
  have hsame : c.tagNames = b.tagNames := by
    funext postId
    ext x
    simpa using hbc.tagNames postId x
  exact {
    tagNames := fun postId x => by rw [hcd.tagNames, hsame]
    categories := fun x => (hcd.categories x).trans (hbc.categories x)
    posts := by rw [hcd.posts, hbc.posts, hsame]
    elsewhere := by
      have hlast := congrArg (fun e : Contents =>
        { e with tags := b.tags, posts := b.posts, taggings := b.taggings }) hcd.elsewhere
      have hfirst := congrArg (fun e : Contents => { e with posts := b.posts }) hbc.elsewhere
      exact hlast.trans hfirst }

end Contents

namespace Store

open Work Contents

variable {s₀ : Store} {c : Contents} {t : Tag} {name : String} {names : List String}

/-- Some names that can be stored are put on the posts of a tag one after the other. -/
theorem attains_copyToEach (hwhole : c.missing = []) (h : c.TagRules) (ht : t ∈ c.tags)
    (hnames : ∀ x ∈ names, TagName.Storable x)
    (hgeneral : (Value.integer s₀.categories.generalCode).fits) (hfit : c.TagsFit names.length) :
    Attains s₀ c (copyToEach t.id names) fun ids d => ids.length = names.length ∧
      Spread s₀.categories.generalCode t.name names c d := by
  induction names generalizing c with
  | nil => exact attains_pure ⟨rfl, Spread.refl h⟩
  | cons x rest ih =>
    obtain ⟨hx, hrest⟩ := List.forall_mem_cons.1 hnames
    refine (attains_findOrCreateTag hwhole hx hgeneral).bind ?_
    rintro new e ⟨he, hfound⟩
    have hmade : Spread s₀.categories.generalCode t.name [] c e :=
      he ▸ h.spread_withTag t.name x s₀.stamp
    have hfit' : e.TagsFit rest.length := he ▸ hfit.withTag hgeneral
    obtain ⟨hnew, rfl⟩ := hmade.rules.findTag?_eq_some_iff.1 hfound
    have hmem : t ∈ e.tags := hmade.tags ht
    refine (attains_copyTaggings (hmade.missing.trans hwhole) hmade.rules hnew (hfit'.ids t hmem)
      (hfit'.ids new hnew)).bind ?_
    rintro ⟨⟩ d rfl
    have hcopied := hmade.trans (hmade.rules.spread_copied hmem hnew)
    refine (ih (hcopied.missing.trans hwhole) hcopied.rules (hcopied.tags ht) hrest
      ⟨hfit'.ids, hfit'.categories, hfit'.next⟩).bind ?_
    rintro ids d ⟨hlength, hspread⟩
    exact attains_pure ⟨congrArg (· + 1) hlength, hcopied.trans hspread⟩

/-- Names that can be stored are put on all posts that carry the name of a tag; the result is the number
of these posts. -/
theorem attains_addTagsToPostsWith (hwhole : c.missing = []) (h : c.TagRules)
    (ht : c.findTag? name = some t) (hnames : ∀ x ∈ names, TagName.Storable x) (hsome : names ≠ [])
    (hgeneral : (Value.integer s₀.categories.generalCode).fits) (hfit : c.TagsFit names.length)
    (hposts : ∀ p ∈ c.posts, (Value.integer p.id).fits) :
    Attains s₀ c (addTagsToPostsWith name names) fun n d => n = c.carrierCount name ∧
      Extended s₀.categories.generalCode s₀.stamp name names c d := by
  obtain ⟨hmem, rfl⟩ := h.findTag?_eq_some_iff.1 ht
  refine (attains_read hwhole rfl _).bind ?_
  rintro found d ⟨rfl, rfl⟩
  rw [ht]
  refine (attains_read hwhole rfl _).bind ?_
  rintro postIds d ⟨rfl, rfl⟩
  rw [ht]
  dsimp only
  refine Attains.ite (fun hempty => ?_) fun _ => ?_
  · have hnone : d.carrierCount t.name = 0 := by
      rw [← h.length_postIdsWith hmem, List.isEmpty_iff.1 hempty]
      rfl
    have habsent : ∀ postId, t.name ∉ d.tagNames postId := by
      intro postId
      rw [← h.mem_postIdsWith hmem, List.isEmpty_iff.1 hempty]
      exact List.not_mem_nil
    refine attains_pure ⟨by rw [hnone]; rfl, ?_⟩
    exact {
      tagNames := fun postId x => by simp [habsent]
      categories := fun _ => rfl
      posts := by simp [habsent]
      elsewhere := rfl }
  · have hfits : ∀ id ∈ d.postIdsWith t.id, (Value.integer id).fits := by
      intro id hid
      obtain ⟨p, hp, rfl⟩ : ∃ p ∈ d.posts, p.id = id := by
        simpa [refersToPost] using h.refersToPosts _ (Contents.mem_postIdsWith.1 hid)
      exact hposts p hp
    have hblock : Attains s₀ d (do
        refreshPostCounts (← copyToEach t.id names)
        touchPosts (d.postIdsWith t.id)) fun _ e =>
        Extended s₀.categories.generalCode s₀.stamp t.name names d e := by
      refine (attains_copyToEach hwhole h hmem hnames hgeneral hfit).bind ?_
      rintro ids e ⟨hlength, hspread⟩
      have hids : ids ≠ [] := by
        rintro rfl
        exact hsome (List.eq_nil_of_length_eq_zero hlength.symm)
      refine (attains_refreshPostCounts (hspread.missing.trans hwhole) hids).bind ?_
      rintro ⟨⟩ e rfl
      have hwhole' : (e.recount ids s₀.stamp).missing = [] := hspread.missing.trans hwhole
      refine (attains_touchPosts hwhole' hfits).imp ?_
      rintro ⟨⟩ e rfl
      exact hspread.extended h hmem rfl ids
    refine Attains.bind (Attains.atomic (setting_extension _ _ _) hblock) ?_
    rintro ⟨⟩ e hextended
    exact attains_pure ⟨by rw [h.length_postIdsWith hmem], hextended⟩

end Store

end Imageboard
