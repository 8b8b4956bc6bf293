import Imageboard.Proofs.Store.Leading
import Imageboard.Store.Tagging

/-!
# What work on posts and tags keeps

Work on users, tags, posts and taggings touches no other table, so it keeps every property of the
contents that does not look at these four. It makes tags but renames none, and apart from making posts it
only stamps them; so a property that looks at the names of tags, or at posts without their stamps, is kept
if making such a record keeps it. Properties that look at more are kept as well if each of the operations
keeps them; `TaggingKeeps` lists what has to be shown. Putting tags on a single post and taking them off it
is not done as a whole, so it can be kept from its end, and `SinglePostsKeep` is about that.
-/

namespace Imageboard

namespace Contents

/-- A property of contents that does not depend on users, tags, posts and taggings. -/
def IgnoresTagging (P : Contents → Prop) : Prop :=
  ∀ c users tags posts taggings, P c →
    P { c with users := users, tags := tags, posts := posts, taggings := taggings }

/-- A property of contents that depends on tags and taggings only by the names of the tags, and that stays
when a tag is made for a name that is not blank and when posts are stamped. -/
structure SeesTagNames (P : Contents → Prop) : Prop where
  congr : ∀ c tags taggings, tags.map (·.name) = c.tags.map (·.name) → P c →
    P { c with tags := tags, taggings := taggings }
  addTag : ∀ c name category stamp t d, TagName.normalize name ≠ "" → P c →
    c.addTag (TagName.normalize name) category stamp = .ok (t, d) → P d
  touch : ∀ c ids stamp, P c → P (c.touch ids stamp)

section Adding

variable {c d : Contents} {name : String} {stamp : Value}

/-- A user is added at the end, unless the name is taken. -/
theorem addUser_eq_ok {id : Int} (h : c.addUser name stamp = .ok (id, d)) :
    id = nextId (c.users.map (·.id)) ∧ d = { c with users := c.users ++ [⟨id, name, stamp⟩] } := by
  rw [addUser] at h
  split at h
  · contradiction
  · obtain ⟨rfl, rfl⟩ := Prod.mk.inj (Except.ok.inj h)
    exact ⟨rfl, rfl⟩

/-- A tag is added at the end, unless its name is taken. -/
theorem addTag_eq_ok {category : Int} {t : Tag} (h : c.addTag name category stamp = .ok (t, d)) :
    name ∉ c.tags.map (·.name) ∧ t.name = name ∧ d = { c with tags := c.tags ++ [t] } := by
  rw [Contents.addTag] at h
  split at h
  · contradiction
  next hfree =>
    obtain ⟨rfl, rfl⟩ := Prod.mk.inj (Except.ok.inj h)
    exact ⟨by simpa using hfree, rfl, rfl⟩

/-- A post is added at the end, unless its id is taken. -/
theorem addPost_eq_ok {draft : PostDraft} {id : Int} (h : c.addPost draft stamp = .ok (id, d)) :
    (∀ q ∈ c.posts, q.id ≠ id) ∧ d = { c with posts := c.posts ++ [draft.toPost id stamp] } := by
  dsimp only [addPost, requireReferences] at h
  split at h
  · contradiction
  · split at h
    · contradiction
    next hfree =>
      split at h
      · obtain ⟨rfl, rfl⟩ := Prod.mk.inj (Except.ok.inj h)
        exact ⟨by simpa using hfree, rfl⟩
      · contradiction

end Adding

section Ignoring

variable {P : Contents → Prop} (hP : IgnoresTagging P)
include hP

/-- A property that does not depend on tags does not look at their names either. -/
theorem IgnoresTagging.seesTagNames : SeesTagNames P where
  congr c _ _ _ hc := hP c _ _ _ _ hc
  addTag c _ _ _ _ d _ hc hd := by
    obtain ⟨-, -, rfl⟩ := addTag_eq_ok hd
    exact hP c _ _ _ _ hc
  touch c _ _ hc := hP c _ _ _ _ hc

/-- A property that does not depend on users stays when one is added. -/
theorem IgnoresTagging.addUser (c : Contents) (name : String) (stamp : Value) (id : Int)
    (d : Contents) (hc : P c) (hd : c.addUser name stamp = .ok (id, d)) : P d := by
  obtain ⟨-, rfl⟩ := addUser_eq_ok hd
  exact hP c _ _ _ _ hc

/-- A property that does not depend on posts stays when one is added. -/
theorem IgnoresTagging.addPost (draft : PostDraft) (c : Contents) (stamp : Value) (id : Int)
    (d : Contents) (hc : P c) (hd : c.addPost draft stamp = .ok (id, d)) : P d := by
  obtain ⟨-, rfl⟩ := addPost_eq_ok hd
  exact hP c _ _ _ _ hc

end Ignoring

/-- What changes of tags leave alone is listed as before. -/
theorem map_tags_mapTags {c : Contents} {p : Tag → Bool} {f : Tag → Tag} {β : Type} {g : Tag → β}
    (hg : ∀ t, g (f t) = g t) : (c.mapTags p f).tags.map g = c.tags.map g := by
  simp only [mapTags, List.map_map]
  refine List.map_congr_left fun t _ => ?_
  dsimp only [Function.comp]
  split
  · exact hg t
  · rfl

end Contents

namespace Store

open Work

/-- A property of contents that all work on users, tags, posts and taggings keeps, if only by its success
when it is about the tags of a single post. -/
structure TaggingKeeps (P : Contents → Prop) : Prop where
  findOrCreateUser : ∀ name, Keeps P (findOrCreateUser name)
  findOrCreateTag : ∀ name category, Keeps P (findOrCreateTag name category)
  setTagCategory : ∀ id category, Keeps P (setTagCategory id category)
  addPostTags : ∀ postId names, Leads P (addPostTags postId names) fun _ => P
  removePostTags : ∀ postId names, Leads P (removePostTags postId names) fun _ => P
  createPost : ∀ draft names, Keeps P (createPost draft names)
  replaceTagOnPosts : ∀ oldName newName, Keeps P (replaceTagOnPosts oldName newName)
  addTagsToPostsWith : ∀ antecedent names, Keeps P (addTagsToPostsWith antecedent names)

/-- A property of contents that changes of the tags of a single post keep wherever they end. -/
structure SinglePostsKeep (P : Contents → Prop) : Prop where
  addPostTags : ∀ postId names, Keeps P (addPostTags postId names)
  removePostTags : ∀ postId names, Keeps P (removePostTags postId names)

/-! ## Work whose steps each keep a property -/

section Steps

variable {P : Contents → Prop}

/-- Registering a user keeps what adding a user keeps. -/
theorem keeps_findOrCreateUser
    (h : ∀ c name stamp a d, P c → c.addUser name stamp = .ok (a, d) → P d) (name : String) :
    Keeps P (findOrCreateUser name) := by
  refine (keeps_read ..).bind fun found => ?_
  cases found with
  | some id => exact keeps_pure _
  | none => exact keeps_get.bind fun s => keeps_write fun c a d hc hd => h c name s.stamp a d hc hd

/-- Making a tag keeps what adding a tag keeps. -/
theorem keeps_findOrCreateTag
    (h : ∀ c name code stamp a d, TagName.normalize name ≠ "" → P c →
      c.addTag (TagName.normalize name) code stamp = .ok (a, d) → P d)
    (name : String) (category : Option Int) : Keeps P (findOrCreateTag name category) := by
  rw [findOrCreateTag]
  dsimp only
  split
  · exact keeps_throw_bind _ _
  next hblank =>
    rw [String.isEmpty_iff] at hblank
    refine (keeps_read ..).bind fun found => ?_
    cases found with
    | some tag => exact keeps_pure _
    | none =>
      exact keeps_get.bind fun s => keeps_write fun c a d hc hd =>
        h c name _ s.stamp a d hblank hc hd

/-- Giving a tag a category keeps what changes of tags keep. -/
theorem keeps_setTagCategory
    (h : ∀ c id category stamp, P c →
      P (c.mapTags (·.id = id) fun t => { t with category := category, updatedAt := stamp }))
    (id category : Int) : Keeps P (setTagCategory id category) := by
  refine keeps_get.bind fun s => keeps_write fun c _ d hc hd => ?_
  obtain ⟨-, rfl⟩ := Prod.mk.inj (Except.ok.inj hd)
  exact h c id category s.stamp hc

/-- Stamping posts keeps what changes of posts keep. -/
theorem keeps_touchPosts (h : ∀ c ids stamp, P c → P (c.touch ids stamp)) (ids : List Int) :
    Keeps P (touchPosts ids) := by
  refine keeps_get.bind fun s => keeps_write fun c _ d hc hd => ?_
  obtain ⟨-, rfl⟩ := Prod.mk.inj (Except.ok.inj hd)
  exact h c ids s.stamp hc

/-- Stamping a post that changed keeps what changes of posts keep. -/
theorem keeps_touchIfChanged (h : ∀ c ids stamp, P c → P (c.touch ids stamp)) (postId : Int)
    (changes : Nat) : Keeps P (touchIfChanged postId changes) :=
  Keeps.ite ((keeps_touchPosts h _).bind fun _ => keeps_pure _) (keeps_pure _)

end Steps

/-! ## Properties of tag names and of other tables -/

section Names

variable {P : Contents → Prop} (hP : Contents.SeesTagNames P)
include hP

/-- Making a tag keeps a property of tag names. -/
theorem keeps_findOrCreateTag_of_names (name : String) (category : Option Int) :
    Keeps P (findOrCreateTag name category) :=
  keeps_findOrCreateTag hP.addTag name category

/-- Changing a post count keeps a property of tag names. -/
theorem keeps_shiftPostCount_of_names (id amount : Int) : Keeps P (shiftPostCount id amount) := by
  refine keeps_write fun c _ d hc hd => ?_
  obtain ⟨-, rfl⟩ := Prod.mk.inj (Except.ok.inj hd)
  exact hP.congr c _ _ (Contents.map_tags_mapTags fun _ => rfl) hc

/-- Counting posts anew keeps a property of tag names. -/
theorem keeps_refreshPostCounts_of_names (ids : List Int) : Keeps P (refreshPostCounts ids) := by
  refine Keeps.guarded (keeps_get.bind fun s => keeps_write fun c _ d hc hd => ?_)
  obtain ⟨-, rfl⟩ := Prod.mk.inj (Except.ok.inj hd)
  exact hP.congr c _ _ (Contents.map_tags_mapTags fun _ => rfl) hc

/-- Stamping posts keeps a property of tag names. -/
theorem keeps_touchPosts_of_names (ids : List Int) : Keeps P (touchPosts ids) :=
  keeps_touchPosts hP.touch ids

/-- Putting a tag on a post keeps a property of tag names. -/
theorem keeps_addTagging_of_names (postId tagId : Int) : Keeps P (addTagging postId tagId) := by
  refine keeps_writeReferring fun c a d hc hd => ?_
  rw [Contents.addTagging] at hd
  split at hd
  · obtain ⟨-, rfl⟩ := Prod.mk.inj (Except.ok.inj hd)
    exact hc
  · dsimp only [Contents.requireReferences] at hd
    split at hd
    · obtain ⟨-, rfl⟩ := Prod.mk.inj (Except.ok.inj hd)
      exact hP.congr c _ _ rfl hc
    · contradiction

/-- Taking a tag off a post keeps a property of tag names. -/
theorem keeps_removeTagging_of_names (postId tagId : Int) :
    Keeps P (removeTagging postId tagId) := by
  refine keeps_writeReferring fun c a d hc hd => ?_
  obtain ⟨-, rfl⟩ := Prod.mk.inj (Except.ok.inj hd)
  exact hP.congr c _ _ rfl hc

/-- Putting a tag on the posts of another keeps a property of tag names. -/
theorem keeps_copyTaggings_of_names (source target : Int) :
    Keeps P (copyTaggings source target) := by
  refine keeps_writeReferring fun c a d hc hd => ?_
  dsimp only [Contents.copyTaggings, Contents.requireReferences] at hd
  split at hd
  · obtain ⟨-, rfl⟩ := Prod.mk.inj (Except.ok.inj hd)
    exact hP.congr c _ _ rfl hc
  · contradiction

/-- Taking a tag off all posts keeps a property of tag names. -/
theorem keeps_removeTaggingsOf_of_names (tagId : Int) : Keeps P (removeTaggingsOf tagId) := by
  refine keeps_writeReferring fun c _ d hc hd => ?_
  obtain ⟨-, rfl⟩ := Prod.mk.inj (Except.ok.inj hd)
  exact hP.congr c _ _ rfl hc

/-- Putting tags on a post one after the other keeps a property of tag names. -/
theorem keeps_addEach_of_names (postId : Int) (names : List String) :
    Keeps P (addEach postId names) := by
  induction names with
  | nil => exact keeps_pure _
  | cons name rest ih =>
    refine (keeps_findOrCreateTag_of_names hP _ _).bind fun tag =>
      (keeps_addTagging_of_names hP _ _).bind fun added => ?_
    have hrest : Keeps P (do
        let more ← addEach postId rest
        return if added then more + 1 else more) := ih.bind fun _ => keeps_pure _
    exact Keeps.ite ((keeps_shiftPostCount_of_names hP _ _).bind fun _ => hrest) hrest

/-- Taking tags off a post one after the other keeps a property of tag names. -/
theorem keeps_removeEach_of_names (postId : Int) (names : List String) :
    Keeps P (removeEach postId names) := by
  induction names with
  | nil => exact keeps_pure _
  | cons name rest ih =>
    refine (keeps_read ..).bind fun found => ?_
    cases found with
    | none => exact ih
    | some tag =>
      refine (keeps_removeTagging_of_names hP _ _).bind fun removed => ?_
      have hrest : Keeps P (do
          let more ← removeEach postId rest
          return if removed then more + 1 else more) := ih.bind fun _ => keeps_pure _
      exact Keeps.ite ((keeps_shiftPostCount_of_names hP _ _).bind fun _ => hrest) hrest

/-- Putting tags on a post keeps a property of tag names. -/
theorem keeps_addPostTags_of_names (postId : Int) (names : List String) :
    Keeps P (addPostTags postId names) :=
  (keeps_addEach_of_names hP postId names).bind fun _ =>
    keeps_touchIfChanged hP.touch _ _

/-- Taking tags off a post keeps a property of tag names. -/
theorem keeps_removePostTags_of_names (postId : Int) (names : List String) :
    Keeps P (removePostTags postId names) :=
  (keeps_removeEach_of_names hP postId names).bind fun _ =>
    keeps_touchIfChanged hP.touch _ _

/-- Changes of the tags of a single post keep a property of tag names. -/
theorem singlePostsKeep_of_names : SinglePostsKeep P :=
  ⟨keeps_addPostTags_of_names hP, keeps_removePostTags_of_names hP⟩

/-- Putting tags on the posts of another keeps a property of tag names. -/
theorem keeps_copyToEach_of_names (source : Int) (names : List String) :
    Keeps P (copyToEach source names) := by
  induction names with
  | nil => exact keeps_pure _
  | cons name rest ih =>
    exact (keeps_findOrCreateTag_of_names hP _ _).bind fun tag =>
      (keeps_copyTaggings_of_names hP _ _).bind fun _ => ih.bind fun _ => keeps_pure _

/-- The block that makes a post with tags keeps a property of tag names that adding the post keeps. -/
theorem keeps_creation_of_names {draft : PostDraft}
    (hpost : ∀ c stamp id d, P c → c.addPost draft stamp = .ok (id, d) → P d) (names : List String) :
    Keeps P (do
      let stamp := (← get).stamp
      let id ← writeReferring .posts draft.bound (Contents.addPost draft stamp)
      let _ ← addPostTags id names
      return id) :=
  keeps_get.bind fun s => (keeps_writeReferring fun c id d hc hd => hpost c s.stamp id d hc hd).bind
    fun id => (keeps_addPostTags_of_names hP id names).bind fun _ => keeps_pure _

/-- The block that replaces a tag on posts keeps a property of tag names. -/
theorem keeps_replacement_of_names (oldId newId : Int) (postIds : List Int) :
    Keeps P (do
      copyTaggings oldId newId
      removeTaggingsOf oldId
      refreshPostCounts [oldId, newId]
      touchPosts postIds) :=
  (keeps_copyTaggings_of_names hP _ _).bind fun _ =>
    (keeps_removeTaggingsOf_of_names hP _).bind fun _ =>
      (keeps_refreshPostCounts_of_names hP _).bind fun _ => keeps_touchPosts_of_names hP _

/-- The block that puts tags on the posts of another keeps a property of tag names. -/
theorem keeps_extension_of_names (source : Int) (names : List String) (postIds : List Int) :
    Keeps P (do
      refreshPostCounts (← copyToEach source names)
      touchPosts postIds) :=
  (keeps_copyToEach_of_names hP _ _).bind fun _ =>
    (keeps_refreshPostCounts_of_names hP _).bind fun _ => keeps_touchPosts_of_names hP _

/-- All work on posts and tags keeps a property of tag names that adding users and posts keeps. -/
theorem taggingKeeps_of_names
    (huser : ∀ c name stamp id d, P c → c.addUser name stamp = .ok (id, d) → P d)
    (hpost : ∀ draft c stamp id d, P c → c.addPost draft stamp = .ok (id, d) → P d) :
    TaggingKeeps P where
  findOrCreateUser := keeps_findOrCreateUser huser
  findOrCreateTag := keeps_findOrCreateTag_of_names hP
  setTagCategory := keeps_setTagCategory fun c _ _ _ hc =>
    hP.congr c _ _ (Contents.map_tags_mapTags fun _ => rfl) hc
  addPostTags postId names := (keeps_addPostTags_of_names hP postId names).leads
  removePostTags postId names := (keeps_removePostTags_of_names hP postId names).leads
  createPost draft names := (keeps_creation_of_names hP (hpost draft) names).atomic
  replaceTagOnPosts oldName newName := by
    refine (keeps_read ..).bind fun found => ?_
    cases found with
    | none => exact keeps_pure _
    | some old =>
      refine (keeps_findOrCreateTag_of_names hP _ _).bind fun new =>
        (keeps_read ..).bind fun postIds => Keeps.ite (keeps_pure _) ?_
      exact (keeps_replacement_of_names hP _ _ _).atomic.bind fun _ => keeps_pure _
  addTagsToPostsWith antecedent names := by
    refine (keeps_read ..).bind fun found => ?_
    cases found with
    | none => exact keeps_pure _
    | some tag =>
      refine (keeps_read ..).bind fun postIds => Keeps.ite (keeps_pure _) ?_
      exact (keeps_extension_of_names hP _ _ _).atomic.bind fun _ => keeps_pure _

end Names

/-- All work on posts and tags keeps a property of other tables. -/
theorem taggingKeeps_of_ignores {P : Contents → Prop} (hP : Contents.IgnoresTagging P) :
    TaggingKeeps P :=
  taggingKeeps_of_names hP.seesTagNames hP.addUser hP.addPost

/-- Changes of the tags of a single post keep a property of other tables. -/
theorem singlePostsKeep_of_ignores {P : Contents → Prop} (hP : Contents.IgnoresTagging P) :
    SinglePostsKeep P :=
  singlePostsKeep_of_names hP.seesTagNames

/-! ## What is around the contents -/

/-- What holds of all contents depends on no table. -/
theorem ignoresTagging_trivially : Contents.IgnoresTagging fun _ => True :=
  fun _ _ _ _ _ _ => trivial

/-- All work on posts and tags changes nothing around the contents. -/
theorem taggingKeeps_trivially : TaggingKeeps fun _ => True :=
  taggingKeeps_of_ignores ignoresTagging_trivially

/-- Changes of the tags of a single post change nothing around the contents. -/
theorem singlePostsKeep_trivially : SinglePostsKeep fun _ => True :=
  singlePostsKeep_of_ignores ignoresTagging_trivially

/-- The block that makes a post with tags changes nothing around the contents. -/
theorem setting_creation (draft : PostDraft) (names : List String) {others : Others} (s : Store) :
    ((do
      let stamp := (← get).stamp
      let id ← writeReferring .posts draft.bound (Contents.addPost draft stamp)
      let _ ← addPostTags id names
      return id : Work Int).runOn s others).2.setting = s.setting :=
  (keeps_creation_of_names ignoresTagging_trivially.seesTagNames
    (ignoresTagging_trivially.addPost draft) names).setting s

/-- The block that replaces a tag on posts changes nothing around the contents. -/
theorem setting_replacement (oldId newId : Int) (postIds : List Int) {others : Others} (s : Store) :
    ((do
      copyTaggings oldId newId
      removeTaggingsOf oldId
      refreshPostCounts [oldId, newId]
      touchPosts postIds : Work Unit).runOn s others).2.setting = s.setting :=
  (keeps_replacement_of_names ignoresTagging_trivially.seesTagNames oldId newId postIds).setting s

/-- The block that puts tags on the posts of another changes nothing around the contents. -/
theorem setting_extension (source : Int) (names : List String) (postIds : List Int) {others : Others}
    (s : Store) :
    ((do
      refreshPostCounts (← copyToEach source names)
      touchPosts postIds : Work Unit).runOn s others).2.setting = s.setting :=
  (keeps_extension_of_names ignoresTagging_trivially.seesTagNames source names postIds).setting s

end Store

end Imageboard
