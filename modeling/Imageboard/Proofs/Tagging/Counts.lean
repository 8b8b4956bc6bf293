import Imageboard.Store.Tagging
import Mathlib.Data.List.Nodup
import Mathlib.Data.List.Count

/-!
# Post counts

The post count of a tag is right if it is the number of the tag's taggings. Each change of tags and
taggings is followed here by what it does to the counts: some leave all of them right, others make
those of a few tags wrong, which a later recount or a shift by one mends.
-/

namespace Imageboard.Contents

/-- What the store enforces on taggings: none is there twice, and each one's tag exists. -/
structure TaggingRules (c : Contents) : Prop where
  distinct : c.taggings.Nodup
  refers : ∀ g ∈ c.taggings, c.refersToTag g.tagId

/-- The post count of each tag is the number of its taggings. -/
def Counted (c : Contents) : Prop :=
  ∀ t ∈ c.tags, t.postCount = c.taggingCount t.id

instance (c : Contents) : Decidable c.Counted :=
  inferInstanceAs (Decidable (∀ t ∈ c.tags, t.postCount = c.taggingCount t.id))

/-- The rules on taggings hold, and the post counts are right except perhaps those of some tags. -/
structure CountedBut (ids : List Int) (c : Contents) : Prop extends TaggingRules c where
  counts : ∀ t ∈ c.tags, t.id ∉ ids → t.postCount = c.taggingCount t.id

variable {c d : Contents} {ids : List Int}

/-- Right post counts have no exceptions. -/
theorem countedBut_nil_iff : CountedBut [] c ↔ c.TaggingRules ∧ c.Counted :=
  ⟨fun h => ⟨h.toTaggingRules, fun t ht => h.counts t ht List.not_mem_nil⟩,
    fun h => ⟨h.1, fun t ht _ => h.2 t ht⟩⟩

/-- Counts depend on tags and taggings only. -/
theorem CountedBut.congr (h : CountedBut ids c) (htags : d.tags = c.tags)
    (htaggings : d.taggings = c.taggings) : CountedBut ids d where
  distinct := htaggings ▸ h.distinct
  refers := by
    simpa only [refersToTag, htags, htaggings] using h.refers
  counts := by
    simpa only [taggingCount, htags, htaggings] using h.counts

/-! ## Ids of new records -/

/-- No id of a list is larger than the running maximum over it. -/
theorem le_foldl_max (ids : List Int) (start : Int) :
    start ≤ ids.foldl max start ∧ ∀ id ∈ ids, id ≤ ids.foldl max start := by
  induction ids generalizing start with
  | nil => simp
  | cons first rest ih =>
    obtain ⟨hstart, hrest⟩ := ih (max start first)
    refine ⟨Int.le_trans (Int.le_max_left _ _) hstart, ?_⟩
    intro id hid
    rcases List.mem_cons.1 hid with rfl | hid
    · exact Int.le_trans (Int.le_max_right _ _) hstart
    · exact hrest id hid

/-- The id of a new record is larger than all that are there. -/
theorem lt_nextId {id : Int} (h : id ∈ ids) : id < nextId ids := by
  cases ids with
  | nil => simp at h
  | cons first rest =>
    obtain ⟨hfirst, hrest⟩ := le_foldl_max rest first
    have hle : id ≤ rest.foldl max first := by
      rcases List.mem_cons.1 h with rfl | h
      · exact hfirst
      · exact hrest id h
    rw [nextId]
    omega

/-- The id of a new record is not that of another. -/
theorem nextId_not_mem : nextId ids ∉ ids :=
  fun h => Int.lt_irrefl _ (lt_nextId h)

/-! ## Changes of tags -/

/-- A reference finds a tag by its id. -/
theorem refersToTag_iff {id : Int} : c.refersToTag id ↔ ∃ t ∈ c.tags, t.id = id := by
  simp [refersToTag]

/-- Changes of tags that leave their ids alone break no reference. -/
theorem refersToTag_mapTags {p : Tag → Bool} {f : Tag → Tag} (hid : ∀ t, (f t).id = t.id) (id : Int) :
    (c.mapTags p f).refersToTag id = c.refersToTag id := by
  rw [refersToTag, mapTags, List.any_map]
  congr 1
  funext t
  dsimp only [Function.comp]
  split
  · rw [hid]
  · rfl

/-- Changes of tags that leave their ids alone keep the rules on taggings. -/
theorem TaggingRules.mapTags {p : Tag → Bool} {f : Tag → Tag} (h : TaggingRules c)
    (hid : ∀ t, (f t).id = t.id) : TaggingRules (c.mapTags p f) where
  distinct := h.distinct
  refers g hg := (refersToTag_mapTags hid _).trans (h.refers g hg)

/-- Changes of tags that leave ids and counts alone keep the counts right. -/
theorem CountedBut.mapTags {p : Tag → Bool} {f : Tag → Tag} (h : CountedBut ids c)
    (hid : ∀ t, (f t).id = t.id) (hcount : ∀ t, (f t).postCount = t.postCount) :
    CountedBut ids (c.mapTags p f) where
  toTaggingRules := h.toTaggingRules.mapTags hid
  counts t ht := by
    obtain ⟨u, hu, rfl⟩ := List.mem_map.1 ht
    have hcounted := h.counts u hu
    split
    · rw [hid, hcount]
      exact hcounted
    · exact hcounted

/-- A tag without taggings has the count zero. -/
theorem taggingCount_eq_zero {id : Int} (h : ∀ g ∈ c.taggings, g.tagId ≠ id) :
    c.taggingCount id = 0 := by
  rw [taggingCount, List.countP_eq_zero.2 fun g hg => by simpa using h g hg]
  rfl

/-- A new tag has no taggings, because these refer to tags that are there. -/
theorem CountedBut.addTag (h : CountedBut ids c) {name : String} {category : Int} {stamp : Value}
    {tag : Tag} (hd : c.addTag name category stamp = .ok (tag, d)) : CountedBut ids d := by
  rw [Contents.addTag] at hd
  split at hd
  · contradiction
  obtain ⟨-, rfl⟩ := Prod.mk.inj (Except.ok.inj hd)
  refine ⟨⟨h.distinct, fun g hg => ?_⟩, fun t ht hids => ?_⟩
  · obtain ⟨t, ht, hid⟩ := refersToTag_iff.1 (h.refers g hg)
    exact refersToTag_iff.2 ⟨t, List.mem_append_left _ ht, hid⟩
  · rcases List.mem_append.1 ht with ht | ht
    · exact h.counts t ht hids
    · obtain rfl := List.mem_singleton.1 ht
      refine (taggingCount_eq_zero fun g hg heq => ?_).symm
      obtain ⟨t, ht, hid⟩ := refersToTag_iff.1 (h.refers g hg)
      exact nextId_not_mem (List.mem_map.2 ⟨t, ht, hid.trans heq⟩)

/-- Counting some tags anew mends their counts. -/
theorem CountedBut.recount (h : CountedBut ids c) (stamp : Value) :
    CountedBut [] (c.recount ids stamp) where
  toTaggingRules := h.toTaggingRules.mapTags (by intro _; rfl)
  counts t ht _ := by
    obtain ⟨u, hu, rfl⟩ := List.mem_map.1 ht
    split
    next => rfl
    next hids => exact h.counts u hu (by simpa using hids)

/-- Counting all tags anew makes every count right, whatever it was. -/
theorem counted_recountAll (c : Contents) : c.recountAll.Counted := by
  intro t ht
  obtain ⟨u, hu, rfl⟩ := List.mem_map.1 ht
  split
  next => rfl
  next hright =>
    have hcounted : u.postCount = c.taggingCount u.id := by simpa [isMiscounted] using hright
    exact hcounted

/-! ## Changes of taggings -/

/-- What adding a tagging does: nothing if it is there, and else it refers to a post and a tag. -/
theorem addTagging_eq_ok {g : Tagging} {added : Bool} (hd : c.addTagging g = .ok (added, d)) :
    added = false ∧ g ∈ c.taggings ∧ d = c ∨
      added = true ∧ g ∉ c.taggings ∧ c.refersToPost g.postId ∧ c.refersToTag g.tagId ∧
        d = { c with taggings := c.taggings ++ [g] } := by
  rw [addTagging] at hd
  split at hd
  next hthere =>
    obtain ⟨rfl, rfl⟩ := Prod.mk.inj (Except.ok.inj hd)
    exact Or.inl ⟨rfl, by simpa using hthere, rfl⟩
  next hnew =>
    dsimp only [requireReferences] at hd
    split at hd
    next hrefers =>
      obtain ⟨rfl, rfl⟩ := Prod.mk.inj (Except.ok.inj hd)
      have hboth := hrefers
      rw [taggingRefers, Bool.and_eq_true] at hboth
      exact Or.inr ⟨rfl, by simpa using hnew, hboth.1, hboth.2, rfl⟩
    next => contradiction

/-- If the taggings of one tag become more by a number, its count is mended by that number. -/
theorem CountedBut.shift (h : CountedBut [] c) {id amount : Int} (hrules : d.TaggingRules)
    (htags : d.tags = c.tags)
    (hcount : ∀ i, d.taggingCount i = c.taggingCount i + if i = id then amount else 0) :
    CountedBut [] (d.mapTags (·.id = id) fun t => { t with postCount := t.postCount + amount }) where
  toTaggingRules := hrules.mapTags (by intro _; rfl)
  counts t ht _ := by
    obtain ⟨u, hu, rfl⟩ := List.mem_map.1 ht
    have hcounted := h.counts u (htags ▸ hu) List.not_mem_nil
    have hafter := hcount u.id
    by_cases hid : u.id = id
    · rw [if_pos hid] at hafter
      rw [if_pos (by simpa using hid)]
      exact (congrArg (· + amount) hcounted).trans hafter.symm
    · rw [if_neg hid, Int.add_zero] at hafter
      rw [if_neg (by simpa using hid)]
      exact hcounted.trans hafter.symm

/-- A new tagging and one more in the count of its tag leave all counts right. -/
theorem CountedBut.addTagging_shift (h : CountedBut [] c) {g : Tagging}
    (hd : c.addTagging g = .ok (true, d)) :
    CountedBut [] (d.mapTags (·.id = g.tagId) fun t => { t with postCount := t.postCount + 1 }) := by
  obtain ⟨hfalse, -⟩ | ⟨-, hnew, -, hrefers, rfl⟩ := addTagging_eq_ok hd
  · contradiction
  refine h.shift ⟨?_, fun k hk => ?_⟩ rfl fun i => ?_
  · refine List.nodup_append.2 ⟨h.distinct, List.nodup_singleton g, fun k hk m hm heq => ?_⟩
    exact hnew (List.mem_singleton.1 hm ▸ heq ▸ hk)
  · rcases List.mem_append.1 hk with hk | hk
    · exact h.refers k hk
    · rwa [List.mem_singleton.1 hk]
  · simp only [taggingCount, List.countP_append, List.countP_singleton, decide_eq_true_eq]
    by_cases hid : i = g.tagId
    · simp [hid]
    · simp [hid, Ne.symm hid]

/-- Taking away a tagging that is there once takes one from the count of its tag. -/
theorem taggingCount_removeTagging {g : Tagging} (hdistinct : c.taggings.Nodup)
    (hg : g ∈ c.taggings) (i : Int) :
    (c.removeTagging g).2.taggingCount i = c.taggingCount i + if i = g.tagId then -1 else 0 := by
  have herase : c.taggings.filter (· ≠ g) = c.taggings.erase g := by
    rw [hdistinct.erase_eq_filter]
    exact List.filter_congr fun k _ => by by_cases hk : k = g <;> simp [hk]
  have hperm := (List.perm_cons_erase hg).countP_eq fun k => decide (k.tagId = i)
  rw [List.countP_cons] at hperm
  simp only [removeTagging, taggingCount, herase, hperm]
  by_cases hid : i = g.tagId
  · rw [if_pos (by simp [hid]), if_pos hid]
    omega
  · simp [hid, Ne.symm hid]

/-- A tagging less and one less in the count of its tag leave all counts right. -/
theorem CountedBut.removeTagging_shift (h : CountedBut [] c) {g : Tagging} (hg : g ∈ c.taggings) :
    CountedBut [] ((c.removeTagging g).2.mapTags (·.id = g.tagId) fun t =>
      { t with postCount := t.postCount + -1 }) :=
  h.shift ⟨h.distinct.filter _, fun k hk => h.refers k (List.mem_filter.1 hk).1⟩ rfl
    (taggingCount_removeTagging h.distinct hg)

/-- The posts of a tag are listed once each. -/
theorem nodup_postIdsWith (h : c.taggings.Nodup) (id : Int) : (c.postIdsWith id).Nodup := by
  refine (List.mergeSort_perm _ _).nodup_iff.2 (List.Nodup.map_on ?_ (h.filter _))
  intro g hg k hk heq
  have hgid : g.tagId = id := by simpa using (List.mem_filter.1 hg).2
  have hkid : k.tagId = id := by simpa using (List.mem_filter.1 hk).2
  cases g
  cases k
  simp_all

/-- Copying the taggings of a tag to another one makes only the count of the latter wrong. -/
theorem CountedBut.copyTaggings (h : CountedBut ids c) {source target : Int}
    (hd : c.copyTaggings source target = .ok d) : CountedBut (target :: ids) d := by
  dsimp only [Contents.copyTaggings, requireReferences] at hd
  split at hd
  next hrefers =>
    obtain rfl := Except.ok.inj hd
    have hfresh : ∀ g ∈ ((c.postIdsWith source).map (⟨·, target⟩ : Int → Tagging)).filter
        (fun t => !c.taggings.contains t), g.tagId = target ∧ g ∉ c.taggings := by
      intro g hg
      obtain ⟨hmem, hnew⟩ := List.mem_filter.1 hg
      obtain ⟨postId, -, rfl⟩ := List.mem_map.1 hmem
      exact ⟨rfl, by simpa using hnew⟩
    refine ⟨⟨?_, fun g hg => ?_⟩, fun t ht hids => ?_⟩
    · refine List.nodup_append.2 ⟨h.distinct, ?_, fun g hg k hk heq => ?_⟩
      · refine (List.Nodup.map (fun a b hab => ?_) (nodup_postIdsWith h.distinct _)).filter _
        exact congrArg Tagging.postId hab
      · exact (hfresh k hk).2 (heq ▸ hg)
    · rcases List.mem_append.1 hg with hg | hg
      · exact h.refers g hg
      · have hboth := List.all_eq_true.1 hrefers g hg
        rw [taggingRefers, Bool.and_eq_true] at hboth
        exact hboth.2
    · have htarget := List.ne_of_not_mem_cons hids
      have hnone : ∀ g ∈ ((c.postIdsWith source).map (⟨·, target⟩ : Int → Tagging)).filter
          (fun t => !c.taggings.contains t), ¬ decide (g.tagId = t.id) = true := by
        intro g hg heq
        exact htarget ((of_decide_eq_true heq).symm.trans (hfresh g hg).1)
      have hcounted := h.counts t ht (List.not_mem_of_not_mem_cons hids)
      simp only [taggingCount, List.countP_append, List.countP_eq_zero.2 hnone, Nat.add_zero]
      exact hcounted
  next => contradiction

/-- Taking a tag off all posts makes only its count wrong. -/
theorem CountedBut.removeTaggingsOf (h : CountedBut ids c) (id : Int) :
    CountedBut (id :: ids) { c with taggings := c.taggings.filter (·.tagId ≠ id) } where
  distinct := h.distinct.filter _
  refers g hg := h.refers g (List.mem_filter.1 hg).1
  counts t ht hids := by
    have hid := List.ne_of_not_mem_cons hids
    have hcounted := h.counts t ht (List.not_mem_of_not_mem_cons hids)
    simp only [taggingCount, List.countP_filter]
    rw [hcounted, taggingCount]
    congr 1
    refine List.countP_congr fun g _ => ?_
    constructor
    · intro hg
      have hgid : g.tagId = t.id := by simpa using hg
      simpa [hgid] using hid
    · intro hg
      exact ((Bool.and_eq_true _ _).mp hg).1

end Imageboard.Contents
