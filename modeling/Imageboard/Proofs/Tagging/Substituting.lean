import Imageboard.Proofs.Query.Classifying
import Imageboard.Proofs.Tagging.Replacing
import Imageboard.Proofs.Tagging.SinglePosts
import Imageboard.Proofs.Tagging.Spreading

/-!
# What posts show after a tag is replaced

Replacing a tag copies its taggings to the other tag and then removes them, so each post that carried the
old name gains the new one and loses the old one, whether the tag of the new name was there or is made.
This is followed on all posts at once, step by step, and says what becomes of a name that is replaced
by itself: it is copied to where it is and then removed, so all posts lose it.
-/

namespace Imageboard

/-- A stored spelling is its own stored spelling. -/
theorem TagName.normalize_normalize (name : String) : normalize (normalize name) = normalize name := by
  rw [normalize, normalize, String.toList_ofList, Query.normalizeChars_normalizeChars]

/-- A stored spelling that is not blank can be stored. -/
theorem TagName.storable_normalize {name : String} (hname : normalize name ≠ "") :
    Storable (normalize name) :=
  ⟨normalize_normalize name, hname⟩

namespace Contents

/-- The names on a post when one name is put for another: the new one is added where the old one is, and
then the old one is removed. -/
def substituted (oldName newName : String) (names : Finset String) : Finset String :=
  (if oldName ∈ names then insert newName names else names).erase oldName

/-- The name that is replaced is gone, the other one is there if either was, and the rest stays. -/
theorem mem_substituted {oldName newName x : String} {names : Finset String} :
    x ∈ substituted oldName newName names ↔
      x ≠ oldName ∧ (x ∈ names ∨ x = newName ∧ oldName ∈ names) := by
  unfold substituted
  split
  next hold => simp [hold, or_comm]
  next hold =>
    have hother (hx : x ∈ names) : x ≠ oldName := fun heq => hold (heq ▸ hx)
    simpa [hold] using hother

/-- A name that a post does not carry is not replaced on it. -/
theorem substituted_of_notMem {oldName newName : String} {names : Finset String}
    (hold : oldName ∉ names) : substituted oldName newName names = names := by
  rw [substituted, if_neg hold, Finset.erase_eq_of_notMem hold]

variable {c d : Contents} {old new : Tag} {names : Int → Finset String}

/-- Copied taggings show on all posts of the tag that they are copied from. -/
theorem Shows.copyTaggings (h : Shows names c) (hold : old ∈ c.tags) (hnew : new ∈ c.tags)
    (hd : c.copyTaggings old.id new.id = .ok d) : old ∈ d.tags ∧
      Shows (fun id => if old.name ∈ names id then insert new.name (names id) else names id) d := by
  obtain rfl := Except.ok.inj ((h.copyTaggings_eq_ok old.id hnew).symm.trans hd)
  refine ⟨hold, h.copied old.id hnew, funext fun id => Finset.ext fun x => ?_⟩
  have hspread : Spread 0 old.name [new.name] c _ := h.spread_copied hold hnew
  rw [hspread.tagNames, h.shown, List.mem_singleton]
  split <;> simp_all [or_comm]

/-- Taggings of a tag that are removed do not show on any post. -/
theorem Shows.removeTaggingsOf (h : Shows names c) (hold : old ∈ c.tags) :
    Shows (fun id => (names id).erase old.name)
      { c with taggings := c.taggings.filter (·.tagId ≠ old.id) } := by
  have hrules : TagRules { c with taggings := c.taggings.filter (·.tagId ≠ old.id) } :=
    ⟨⟨h.distinct.filter _, fun g hg => h.refers g (List.mem_filter.1 hg).1⟩, h.tagIds, h.tagNames,
      h.postIds, fun g hg => h.refersToPosts g (List.mem_filter.1 hg).1⟩
  refine ⟨hrules, funext fun id => Finset.ext fun x => ?_⟩
  rw [hrules.mem_tagNames, ← h.shown, Finset.mem_erase, h.mem_tagNames]
  simp only [List.mem_filter, decide_eq_true_eq]
  constructor
  · rintro ⟨t, ht, rfl, hg, hid⟩
    exact ⟨fun hname => hid ((h.id_eq_iff ht hold).2 hname), t, ht, rfl, hg⟩
  · rintro ⟨hname, t, ht, rfl, hg⟩
    exact ⟨t, ht, rfl, hg, fun hid => hname ((h.id_eq_iff ht hold).1 hid)⟩

/-- No post is counted for a name exactly if none carries it. -/
theorem TagRules.carrierCount_eq_zero_iff (h : c.TagRules) {name : String} :
    c.carrierCount name = 0 ↔ ∀ id, name ∉ c.tagNames id := by
  rw [carrierCount, List.countP_eq_zero]
  constructor
  · intro hnone id hmem
    obtain ⟨t, -, -, hg⟩ := h.mem_tagNames.1 hmem
    obtain ⟨p, hp, rfl⟩ : ∃ p ∈ c.posts, p.id = id := by
      simpa [refersToPost] using h.refersToPosts _ hg
    exact hnone p hp (decide_eq_true hmem)
  · exact fun hnone p _ hmem => hnone p.id (of_decide_eq_true hmem)

end Contents

namespace Store

open Work Contents

variable {s : Store} {names : Int → Finset String} {posts : List Post} {oldName newName : String}

/-- A new name and its stored spelling are put for another one alike. -/
theorem replaceTagOnPosts_normalize (oldName newName : String) :
    replaceTagOnPosts oldName (TagName.normalize newName) = replaceTagOnPosts oldName newName := by
  simp only [replaceTagOnPosts, findOrCreateTag, TagName.normalize_normalize]

/-- The block that replaces a tag puts its new name for the old one on each post. -/
theorem leads_replacement_shows (old new : Tag) (postIds : List Int) :
    Leads (fun c => Shows names c ∧ old ∈ c.tags ∧ new ∈ c.tags) (do
      copyTaggings old.id new.id
      removeTaggingsOf old.id
      refreshPostCounts [old.id, new.id]
      touchPosts postIds) fun _ => Shows fun id => substituted old.name new.name (names id) := by
  refine Leads.bind (leads_writeReferring (Q := fun _ c => old ∈ c.tags ∧ Shows (fun id =>
    if old.name ∈ names id then insert new.name (names id) else names id) c)
      fun c _ d hc hd => ?_) fun _ => ?_
  · rcases hcopied : c.copyTaggings old.id new.id with e | after
    · rw [hcopied] at hd
      contradiction
    · rw [hcopied] at hd
      obtain ⟨-, rfl⟩ := Prod.mk.inj (Except.ok.inj hd)
      exact hc.1.copyTaggings hc.2.1 hc.2.2 hcopied
  refine Leads.bind (leads_writeReferring (Q := fun _ => Shows fun id =>
    substituted old.name new.name (names id)) fun c _ d hc hd => ?_) fun _ => ?_
  · obtain ⟨-, rfl⟩ := Prod.mk.inj (Except.ok.inj hd)
    exact hc.2.removeTaggingsOf hc.1
  have hrefresh : Keeps (Shows fun id => substituted old.name new.name (names id))
      (refreshPostCounts [old.id, new.id]) := by
    refine Keeps.guarded (keeps_get.bind fun s => keeps_write fun c _ d hc hd => ?_)
    obtain ⟨-, rfl⟩ := Prod.mk.inj (Except.ok.inj hd)
    exact hc.mapTags (by intro _; rfl) (by intro _; rfl)
  have htouch : Keeps (Shows fun id => substituted old.name new.name (names id)) (touchPosts postIds) :=
    keeps_touchPosts (fun _ ids stamp hc => hc.touch ids stamp) postIds
  exact hrefresh.leads.bind fun _ => htouch.leads

/-- Where no post carries the old name, there is nothing to replace. -/
theorem leads_replaceNothing {P : Contents → Prop}
    (hP : ∀ c, P c → Shows names c ∧ ∀ id, oldName ∉ names id) :
    Leads P (pure 0 : Work Int) fun n c =>
      n = (posts.countP fun p => oldName ∈ names p.id : Nat) ∧
        Shows (fun id => substituted oldName newName (names id)) c := by
  rintro s n t others hs ⟨⟩
  obtain ⟨hshows, habsent⟩ := hP _ hs
  refine ⟨by simp [habsent], ?_⟩
  simpa only [substituted_of_notMem (habsent _)] using hshows

/-- Replacing a tag that is there puts its new name for the old one on each post, and counts the posts that
carried the old one. -/
theorem leads_replaceTag (old : Tag) (newName : String) :
    Leads (fun c => Shows names c ∧ c.posts = posts ∧ old ∈ c.tags) (do
      let new ← findOrCreateTag newName none
      let postIds ← postIdsWithTag old.name
      if postIds.isEmpty then return 0
      atomic do
        copyTaggings old.id new.id
        removeTaggingsOf old.id
        refreshPostCounts [old.id, new.id]
        touchPosts postIds
      return (postIds.length : Int)) fun n c =>
      n = (posts.countP fun p => old.name ∈ names p.id : Nat) ∧
        Shows (fun id => substituted old.name (TagName.normalize newName) (names id)) c := by
  have hkept : Keeps (fun c => c.posts = posts ∧ old ∈ c.tags) (findOrCreateTag newName none) := by
    refine keeps_findOrCreateTag (fun c name code stamp a d _ hc hd => ?_) newName none
    obtain ⟨-, -, rfl⟩ := Contents.addTag_eq_ok hd
    exact ⟨hc.1, List.mem_append_left _ hc.2⟩
  refine ((leads_findOrCreateTag_shows newName).and hkept.leads).bind fun new => ?_
  refine Leads.bind (Q := fun postIds c => (Shows names c ∧ old ∈ c.tags ∧ new ∈ c.tags) ∧
    new.name = TagName.normalize newName ∧ postIds = c.postIdsWith old.id ∧
      postIds.length = posts.countP fun p => old.name ∈ names p.id) ?_ fun postIds => ?_
  · refine (leads_read _ _ _).imp (fun _ h => h) ?_
    rintro postIds c ⟨⟨⟨hc, hnew, hname⟩, rfl, hold⟩, rfl⟩
    have hfound : c.findTag? old.name = some old := hc.findTag?_eq_some_iff.2 ⟨hold, rfl⟩
    rw [hfound]
    refine ⟨⟨hc, hold, hnew⟩, hname, rfl, ?_⟩
    dsimp only
    rw [hc.length_postIdsWith hold, carrierCount, hc.shown]
  refine Leads.ite (fun hempty => leads_replaceNothing fun c hc => ⟨hc.1.1, fun id hmem => ?_⟩) fun _ => ?_
  · have hlisted := (hc.1.1.mem_postIdsWith hc.1.2.1).2 (hc.1.1.shown ▸ hmem)
    rw [← hc.2.2.1, List.isEmpty_iff.1 hempty] at hlisted
    exact List.not_mem_nil hlisted
  · rintro s n t others ⟨hs, hname, -, hlength⟩ hrun
    obtain ⟨⟨⟩, m, hblock, hend⟩ := runOn_bind_eq_ok.1 hrun
    obtain ⟨rfl, rfl⟩ := runOn_pure_eq_ok.1 hend
    have hshows := (leads_replacement_shows old new postIds).atomic
      (setting_replacement old.id new.id postIds) s _ m hs hblock
    rw [hname] at hshows
    exact ⟨by rw [hlength], hshows⟩

/-- Replacing a tag puts its new name for the old one on each post, and counts the posts that carried the
old one. -/
theorem leads_replaceTagOnPosts (oldName newName : String) :
    Leads (fun c => Shows names c ∧ c.posts = posts) (replaceTagOnPosts oldName newName) fun n c =>
      n = (posts.countP fun p => oldName ∈ names p.id : Nat) ∧
        Shows (fun id => substituted oldName (TagName.normalize newName) (names id)) c := by
  refine (leads_read _ _ _).bind fun found => ?_
  cases found with
  | none =>
    refine leads_replaceNothing fun c hc => ⟨hc.1.1, fun id hmem => ?_⟩
    obtain ⟨t, ht, hname, -⟩ := hc.1.1.mem_tagNames.1 (hc.1.1.shown ▸ hmem)
    exact findTag?_eq_none_iff.1 hc.2.symm t ht hname
  | some old =>
    rintro s n t others ⟨⟨hs, hposts⟩, hfound⟩ hrun
    obtain ⟨hold, rfl⟩ := hs.findTag?_eq_some_iff.1 hfound.symm
    exact leads_replaceTag old newName s n t ⟨hs, hposts, hold⟩ hrun

/-- Replacing a tag succeeds if all tables are there, nobody else holds the store, and statements can take
the ids of posts and tags. -/
theorem attains_replaceTagOnPosts_of_fits {s₀ : Store} {c : Contents} (oldName : String)
    (hwhole : c.missing = []) (h : c.TagRules) (hname : TagName.normalize newName ≠ "")
    (hgeneral : (Value.integer s₀.categories.generalCode).fits) (hfit : c.TagsFit 1)
    (hposts : ∀ p ∈ c.posts, (Value.integer p.id).fits) :
    Attains s₀ c (replaceTagOnPosts oldName newName) fun _ _ => True := by
  rw [← replaceTagOnPosts_normalize]
  cases hold : c.findTag? oldName with
  | none =>
    refine (attains_read hwhole rfl _).bind ?_
    rintro found d ⟨rfl, rfl⟩
    rw [hold]
    exact attains_pure trivial
  | some old =>
    obtain ⟨holdMem, -⟩ := h.findTag?_eq_some_iff.1 hold
    obtain ⟨new, hnew⟩ := exists_findTag?_withTag c (TagName.normalize newName)
      s₀.categories.generalCode s₀.stamp
    obtain ⟨hnewMem, -⟩ := h.withTag.findTag?_eq_some_iff.1 hnew
    exact (attains_replaceTagOnPosts_made hwhole h hold hnew (TagName.storable_normalize hname) hgeneral
      (hfit.ids old holdMem) ((hfit.withTag hgeneral).ids new hnewMem) hposts).imp fun _ _ _ => trivial

/-- On a store that keeps its rules and has right post counts, replacing a tag returns the number of posts
that carried the old name. These have gained the new name and lost the old one, every other name is where
it was, and the post counts are right. So the posts have the new name, unless it is the old one, which they
lose: then they have it only if there are none. Nothing but a blank name, a lack of room, of tables or of
the right to write can make the replacing fail. -/
theorem runOn_replaceTagOnPosts (hc : s.contents.TagRules) (hcounted : s.contents.Counted)
    (oldName newName : String) :
    (∀ n t, (replaceTagOnPosts oldName newName).runOn s = (.ok n, t) →
      n = s.contents.carrierCount oldName ∧
      (∀ id x, x ∈ t.contents.tagNames id ↔ x ≠ oldName ∧ (x ∈ s.contents.tagNames id ∨
        x = TagName.normalize newName ∧ oldName ∈ s.contents.tagNames id)) ∧
      ((∀ id, oldName ∈ s.contents.tagNames id →
          TagName.normalize newName ∈ t.contents.tagNames id) ↔
        TagName.normalize newName ≠ oldName ∨ s.contents.carrierCount oldName = 0) ∧
      t.contents.TagRules ∧ t.contents.Counted) ∧
    (s.heldElsewhere = false → s.contents.missing = [] → s.contents.TagsFit 1 →
      (∀ p ∈ s.contents.posts, (Value.integer p.id).fits) →
      (Value.integer s.categories.generalCode).fits → TagName.normalize newName ≠ "" →
      ∃ n t, (replaceTagOnPosts oldName newName).runOn s = (.ok n, t) ∧ t.setting = s.setting) := by
  constructor
  · intro n t hrun
    obtain ⟨hn, hshows⟩ := leads_replaceTagOnPosts oldName newName s n t ⟨⟨hc, rfl⟩, rfl⟩ hrun
    have hcounts := (keeps_replaceTagOnPosts_counted oldName newName).leads s n t
      (countedBut_nil_iff.2 ⟨hc.toTaggingRules, hcounted⟩) hrun
    have hnames (id : Int) (x : String) : x ∈ t.contents.tagNames id ↔ x ≠ oldName ∧
        (x ∈ s.contents.tagNames id ∨
          x = TagName.normalize newName ∧ oldName ∈ s.contents.tagNames id) := by
      rw [hshows.shown, mem_substituted]
    refine ⟨hn, hnames, ⟨fun hcarried => ?_, fun hcase id hold => ?_⟩, hshows.toTagRules,
      (countedBut_nil_iff.1 hcounts).2⟩
    · refine or_iff_not_imp_left.2 fun hsame => hc.carrierCount_eq_zero_iff.2 fun id hold => ?_
      exact ((hnames id _).1 (hcarried id hold)).1 (not_ne_iff.1 hsame)
    · rcases hcase with hne | hnone
      · exact (hnames id _).2 ⟨hne, Or.inr ⟨rfl, hold⟩⟩
      · exact absurd hold (hc.carrierCount_eq_zero_iff.1 hnone id)
  · intro hfree hwhole hfit hposts hgeneral hname
    obtain ⟨n, t, hrun, hsetting, -⟩ := attains_replaceTagOnPosts_of_fits oldName hwhole hc hname hgeneral
      hfit hposts s (.refl hfree) rfl
    exact ⟨n, t, hrun, hsetting⟩

/-- A post that shows a cat. -/
def oneCatContents : Contents :=
  { Contents.empty with
    tags := [⟨1, "cat", 0, 1, .null, .null⟩]
    posts := [PostDraft.toPost {} 1 .null]
    taggings := [⟨1, 1⟩] }

/-- The rules hold for one cat. -/
theorem tagRules_oneCatContents : oneCatContents.TagRules where
  distinct := by decide
  refers := by decide
  tagIds := by decide
  tagNames := by decide
  postIds := by decide
  refersToPosts := by decide

/-- The post that shows a cat shows a dog once dogs are put for cats. -/
theorem runOn_replaceTagOnPosts_dog :
    let s : Store := .ofContents oneCatContents ⟨0, 0⟩ .standard
    ∃ n t, (replaceTagOnPosts "cat" "Dog ").runOn s = (.ok n, t) ∧ n = 1 ∧
      (∀ x, x ∈ t.contents.tagNames 1 ↔ x = "dog") ∧ t.contents.Counted := by
  intro s
  obtain ⟨hdone, hsucceeds⟩ := runOn_replaceTagOnPosts (s := s) tagRules_oneCatContents (by decide)
    "cat" "Dog "
  obtain ⟨n, t, hrun, -⟩ := hsucceeds rfl rfl ⟨by decide, by decide, by decide⟩ (by decide) (by decide)
    (by decide)
  obtain ⟨hn, hnames, -, -, hcounted⟩ := hdone n t hrun
  refine ⟨n, t, hrun, hn, fun x => ?_, hcounted⟩
  have hbefore : s.contents.tagNames 1 = {"cat"} := by decide
  have hnormal : TagName.normalize "Dog " = "dog" := by decide
  rw [hnames, hbefore, hnormal]
  simp only [Finset.mem_singleton]
  constructor
  · rintro ⟨hne, hcat | ⟨hdog, -⟩⟩
    · exact absurd hcat hne
    · exact hdog
  · rintro rfl
    exact ⟨by decide, Or.inr ⟨rfl, trivial⟩⟩

/-- The post that shows a cat shows nothing any more once cats are put for cats. -/
theorem replaceTagOnPosts_cat_by_cat :
    let s : Store := .ofContents oneCatContents ⟨0, 0⟩ .standard
    s.contents.TagRules ∧ s.contents.Counted ∧ "cat" ∈ s.contents.tagNames 1 ∧
      ((replaceTagOnPosts "cat" "cat").runOn s).1 = .ok 1 ∧
      TagName.normalize "cat" ∉ ((replaceTagOnPosts "cat" "cat").runOn s).2.contents.tagNames 1 :=
  ⟨tagRules_oneCatContents, by decide, by decide, by decide +kernel, by decide +kernel⟩

end Store

end Imageboard
