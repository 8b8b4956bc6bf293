import Imageboard.Proofs.Tagging.SinglePosts

/-!
# Posts and categories while posts are made

Making a post with tags puts one post behind those that are there, with its names on it, and changes
nothing else that a search sees: the posts before are the same, and a tag that is made for a name is
general, so no name changes its category. Only giving a tag a category does that, and it does so for one
name. What the general category is depends on the board, so this is said for stores with given categories.
-/

namespace Imageboard

namespace Contents

/-- The posts are the given ones, and each name has the given category, the general one if it has no tag. -/
structure Filed (general : Int) (posts : List Post) (category : String → Int) (c : Contents) : Prop where
  posts : c.posts = posts
  category : c.categoryOf general = category

variable {c d : Contents} {t : Tag} {general code : Int} {posts : List Post} {category : String → Int}
  {names : Int → Finset String} {name : String} {stamp : Value}

/-- A tag that is made takes the category of its name from the general one to its own. -/
theorem categoryOf_addTag (general : Int) (hd : c.addTag name code stamp = .ok (t, d)) :
    d.posts = c.posts ∧ t.category = code ∧ c.categoryOf general name = general ∧
      d.categoryOf general = Function.update (c.categoryOf general) name code := by
  rw [addTag] at hd
  split at hd
  · contradiction
  next hfree =>
    have hnone : c.findTag? name = none := by
      simpa [findTag?] using hfree
    obtain ⟨rfl, rfl⟩ := Prod.mk.inj (Except.ok.inj hd)
    refine ⟨rfl, rfl, by rw [categoryOf, hnone]; rfl, funext fun x => ?_⟩
    have hmade : c.withTag name code stamp =
        { c with tags := c.tags ++ [c.freshTag name code stamp] } := if_neg (by simp [hnone])
    change ({ c with tags := c.tags ++ [c.freshTag name code stamp] } : Contents).categoryOf general x = _
    rw [← hmade]
    by_cases hx : x = name
    · subst hx
      rw [Function.update_self, categoryOf, findTag?_withTag_of_none hnone]
      rfl
    · rw [Function.update_of_ne hx, categoryOf, findTag?_withTag_of_ne hx, categoryOf]

/-- Giving a tag a category changes the category of its name. -/
theorem TagRules.categoryOf_withCategory (h : c.TagRules) (ht : t ∈ c.tags) :
    (c.withCategory t.id code stamp).categoryOf general =
      Function.update (c.categoryOf general) t.name code := by
  funext x
  by_cases hx : x = t.name
  · subst hx
    rw [Function.update_self, categoryOf, withCategory, findTag?_mapTags (by intro _; rfl),
      h.findTag?_eq_some_iff.2 ⟨ht, rfl⟩]
    simp
  · rw [Function.update_of_ne hx, categoryOf, h.findTag?_withCategory ht hx, categoryOf]

/-- A general tag that is made leaves all names in their categories. -/
theorem Filed.addTag (h : Filed general posts category c)
    (hd : c.addTag name general stamp = .ok (t, d)) : Filed general posts category d := by
  obtain ⟨hposts, -, hgeneral, hcategory⟩ := categoryOf_addTag general hd
  have hsame := Function.update_eq_self name (c.categoryOf general)
  rw [hgeneral] at hsame
  exact ⟨hposts.trans h.posts, hcategory.trans (hsame.trans h.category)⟩

/-- A new post has an id of its own, and shows nothing yet. -/
theorem Shows.addPost {draft : PostDraft} {id : Int} (h : Shows names c)
    (hd : c.addPost draft stamp = .ok (id, d)) : (∀ q ∈ c.posts, q.id ≠ id) ∧ names id = ∅ ∧
      Shows names d ∧ d.tags = c.tags ∧ ∃ p, p.id = id ∧ d.posts = c.posts ++ [p] := by
  obtain ⟨hnew, rfl⟩ := addPost_eq_ok hd
  have hblank : names id = ∅ := by
    refine Finset.eq_empty_of_forall_notMem fun x hx => ?_
    obtain ⟨t, -, -, hg⟩ := h.mem_tagNames.1 (h.shown ▸ hx)
    obtain ⟨q, hq, hpost⟩ : ∃ q ∈ c.posts, q.id = id := by
      simpa [refersToPost] using h.refersToPosts _ hg
    exact hnew q hq hpost
  have hrules : TagRules { c with posts := c.posts ++ [draft.toPost id stamp] } := by
    refine ⟨⟨h.distinct, h.refers⟩, h.tagIds, h.tagNames, ?_, fun g hg => ?_⟩
    · rw [List.map_append]
      refine List.nodup_append_comm.1 (List.nodup_cons.2 ⟨fun hmem => ?_, h.postIds⟩)
      obtain ⟨q, hq, hpost⟩ := List.mem_map.1 hmem
      exact hnew q hq hpost
    · have hrefers : c.posts.any (·.id = g.postId) := h.refersToPosts g hg
      simp only [refersToPost, List.any_append, hrefers, Bool.true_or]
  exact ⟨hnew, hblank, ⟨hrules, (tagNames_congr rfl rfl).trans h.shown⟩, rfl, _, rfl, rfl⟩

/-- Stamping the last post leaves the others. -/
theorem Filed.touch {p : Post} (h : Filed general (posts ++ [p]) category c)
    (hnew : ∀ q ∈ posts, q.id ≠ p.id) (stamp : Value) :
    Filed general (posts ++ [{ p with updatedAt := stamp }]) category (c.touch [p.id] stamp) := by
  refine ⟨?_, (categoryOf_congr rfl).trans h.category⟩
  have hsame : posts.map (fun q => if [p.id].contains q.id then { q with updatedAt := stamp } else q) =
      posts := by
    refine (List.map_congr_left fun q hq => ?_).trans (List.map_id posts)
    rw [if_neg (by simpa using hnew q hq), id]
  rw [Contents.touch, mapPosts, h.posts, List.map_append, hsame]
  simp

end Contents

namespace Store

open Work Contents

variable {categories : Categories} {posts : List Post} {category : String → Int}
  {names : Int → Finset String} {xs : List String}

/-- A tag that is found, or made without a category, leaves all names in their categories. -/
theorem leadsUnder_findOrCreateTag_filed (name : String) :
    LeadsUnder categories (Filed categories.generalCode posts category) (findOrCreateTag name none)
      fun _ => Filed categories.generalCode posts category := by
  rw [findOrCreateTag]
  dsimp only
  refine LeadsUnder.ite (keeps_throw_bind _ _).under ((keeps_read _ _ _).under.bind fun found => ?_)
  cases found with
  | some t => exact (keeps_pure _).under
  | none =>
    refine leadsUnder_get.bind fun s => leadsUnder_write fun c t d hc hd => ?_
    rw [Option.getD_none, hc.1] at hd
    exact hc.2.addTag hd

/-- Names that are put on a post one after the other leave the posts, and all names in their categories. -/
theorem leadsUnder_addEach_filed (postId : Int) (xs : List String) :
    LeadsUnder categories (Filed categories.generalCode posts category) (addEach postId xs)
      fun _ => Filed categories.generalCode posts category := by
  induction xs with
  | nil => exact (keeps_pure _).under
  | cons x rest ih =>
    have hadd (tagId : Int) : Keeps (Filed categories.generalCode posts category)
        (addTagging postId tagId) := by
      refine keeps_writeReferring fun c _ d hc hd => ?_
      obtain ⟨-, -, rfl⟩ | ⟨-, -, -, -, rfl⟩ := addTagging_eq_ok hd
      · exact hc
      · exact ⟨hc.posts, (categoryOf_congr rfl).trans hc.category⟩
    have hshift (tagId : Int) : Keeps (Filed categories.generalCode posts category)
        (shiftPostCount tagId 1) := by
      refine keeps_write fun c _ d hc hd => ?_
      obtain ⟨-, rfl⟩ := Prod.mk.inj (Except.ok.inj hd)
      exact ⟨hc.posts, (categoryOf_mapTags (by intro _; rfl) (by intro _; rfl)).trans hc.category⟩
    have hrest (added : Bool) : LeadsUnder categories (Filed categories.generalCode posts category)
        (addEach postId rest >>= fun more => pure (if added then more + 1 else more)) fun _ =>
          Filed categories.generalCode posts category := ih.bind fun _ => (keeps_pure _).under
    refine (leadsUnder_findOrCreateTag_filed x).bind fun t => (hadd t.id).under.bind fun added => ?_
    exact LeadsUnder.ite ((hshift t.id).under.bind fun _ => hrest added) (hrest added)

/-- Stamping the last post, if something has changed on it, leaves the others. -/
theorem keeps_touchIfChanged_filed {postId general : Int} (hnew : ∀ q ∈ posts, q.id ≠ postId)
    (changes : Nat) :
    Keeps (fun c => ∃ p : Post, p.id = postId ∧ Filed general (posts ++ [p]) category c)
      (touchIfChanged postId changes) := by
  refine Keeps.ite (Keeps.bind (keeps_get.bind fun s => keeps_write fun c _ d hc hd => ?_) fun _ =>
    keeps_pure _) (keeps_pure _)
  obtain ⟨-, rfl⟩ := Prod.mk.inj (Except.ok.inj hd)
  obtain ⟨p, rfl, hfiled⟩ := hc
  exact ⟨{ p with updatedAt := s.stamp }, rfl, hfiled.touch hnew s.stamp⟩

/-- Putting names on the last post leaves the others, and all names in their categories. -/
theorem leadsUnder_addPostTags_filed {postId : Int} (hnew : ∀ q ∈ posts, q.id ≠ postId)
    (xs : List String) :
    LeadsUnder categories
      (fun c => ∃ p : Post, p.id = postId ∧ Filed categories.generalCode (posts ++ [p]) category c)
      (addPostTags postId xs) fun _ c =>
        ∃ p : Post, p.id = postId ∧ Filed categories.generalCode (posts ++ [p]) category c := by
  refine LeadsUnder.bind (Q := fun _ c => ∃ p : Post, p.id = postId ∧
    Filed categories.generalCode (posts ++ [p]) category c) ?_ fun changes =>
      (keeps_touchIfChanged_filed hnew changes).under
  rintro s changes t hcategories ⟨p, hp, hs⟩ hrun
  obtain ⟨hafter, hfiled⟩ := leadsUnder_addEach_filed postId xs s changes t hcategories hs hrun
  exact ⟨hafter, p, hp, hfiled⟩

/-- Putting names on the last post shows on this post, and nothing else changes. -/
theorem leadsUnder_addPostTags {postId : Int} (hnew : ∀ q ∈ posts, q.id ≠ postId)
    (hxs : ∀ x ∈ xs, TagName.normalize x = x) :
    LeadsUnder categories
      (fun c => Shows names c ∧
        ∃ p : Post, p.id = postId ∧ Filed categories.generalCode (posts ++ [p]) category c)
      (addPostTags postId xs) fun _ c =>
        Shows (Function.update names postId (names postId ∪ xs.toFinset)) c ∧
          ∃ p : Post, p.id = postId ∧ Filed categories.generalCode (posts ++ [p]) category c :=
  LeadsUnder.and ((leads_addPostTags_shows postId hxs).under
    (keeps_addPostTags_of_names ignoresTagging_trivially.seesTagNames postId xs).setting)
    (leadsUnder_addPostTags_filed hnew xs)

/-- Making a post puts one behind the others, which shows the names that it is made with, and leaves all
names in their categories. -/
theorem leadsUnder_createPost (draft : PostDraft) (hxs : ∀ x ∈ xs, TagName.normalize x = x) :
    LeadsUnder categories
      (fun c => Shows names c ∧ Filed categories.generalCode posts category c) (createPost draft xs)
      fun id c => ∃ p : Post, p.id = id ∧ (∀ q ∈ posts, q.id ≠ id) ∧
        Shows (Function.update names id xs.toFinset) c ∧
        Filed categories.generalCode (posts ++ [p]) category c := by
  refine LeadsUnder.atomic (setting_creation draft xs) ?_
  refine leadsUnder_get.bind fun s => ?_
  refine LeadsUnder.bind (Q := fun id c => ((∀ q ∈ posts, q.id ≠ id) ∧ names id = ∅) ∧ Shows names c ∧
    ∃ p : Post, p.id = id ∧ Filed categories.generalCode (posts ++ [p]) category c)
    (leadsUnder_writeReferring fun c id d hc hd => ?_) fun id => ?_
  · obtain ⟨hnew, hblank, hshows, htags, p, hp, hposts⟩ := hc.2.1.addPost hd
    have hbefore := hc.2.2
    rw [hbefore.posts] at hnew hposts
    exact ⟨⟨hnew, hblank⟩, hshows, p, hp, hposts, (categoryOf_congr htags).trans hbefore.category⟩
  · rintro s a t hcategories ⟨⟨hnew, hblank⟩, hs⟩ hrun
    obtain ⟨_, m, hadd, hend⟩ := runOn_bind_eq_ok.1 hrun
    obtain ⟨hafter, hshows, p, hp, hfiled⟩ := leadsUnder_addPostTags hnew hxs s _ m hcategories hs hadd
    obtain ⟨rfl, rfl⟩ := runOn_pure_eq_ok.1 hend
    rw [hblank, Finset.empty_union] at hshows
    exact ⟨hafter, p, hp, hnew, hshows, hfiled⟩

/-- A tag that is found, or made with a category, has its name in that category then. -/
theorem leads_findOrCreateTag_given {general : Int} (name : String) (code : Int) :
    Leads (fun c => Shows names c ∧ Filed general posts category c) (findOrCreateTag name (some code))
      fun t c => t ∈ c.tags ∧ t.name = TagName.normalize name ∧ Shows names c ∧
        Filed general posts (Function.update category t.name t.category) c := by
  rw [findOrCreateTag]
  dsimp only
  refine Leads.ite (fun _ => leads_throw _) fun _ => (leads_read _ _ _).bind fun found => ?_
  cases found with
  | some t =>
    rintro s a m others ⟨⟨hs, hfiled⟩, hfound⟩ ⟨⟩
    obtain ⟨ht, hname⟩ := hs.findTag?_eq_some_iff.1 hfound.symm
    have hsame : category t.name = t.category := by
      rw [← hfiled.category, categoryOf, hname, ← hfound]
      rfl
    rw [← hsame, Function.update_eq_self]
    exact ⟨ht, hname, hs, hfiled⟩
  | none =>
    refine leads_get.bind fun s => leads_write fun c t d hc hd => ?_
    obtain ⟨hshows, ht, hname⟩ := hc.1.1.addTag hd
    obtain ⟨hposts, hcode, -, hcategory⟩ := categoryOf_addTag general hd
    refine ⟨ht, hname, hshows, hposts.trans hc.1.2.posts, ?_⟩
    rw [hcategory, hc.1.2.category, hname, hcode]

/-- Giving a tag a category gives it to its name, and leaves the posts. -/
theorem leads_setTagCategory_filed {general : Int} (t : Tag) (code : Int) :
    Leads (fun c => t ∈ c.tags ∧ Shows names c ∧ Filed general posts category c)
      (setTagCategory t.id code) fun _ c => Shows names c ∧
        Filed general posts (Function.update category t.name code) c := by
  refine leads_get.bind fun s => leads_write fun c _ d hc hd => ?_
  obtain ⟨-, rfl⟩ := Prod.mk.inj (Except.ok.inj hd)
  obtain ⟨ht, hshows, hfiled⟩ := hc
  refine ⟨hshows.mapTags (by intro _; rfl) (by intro _; rfl), hfiled.posts, ?_⟩
  rw [← hfiled.category]
  exact hshows.categoryOf_withCategory ht

end Store

end Imageboard
