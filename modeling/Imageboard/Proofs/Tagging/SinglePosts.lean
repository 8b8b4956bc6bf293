import Imageboard.Proofs.Tagging.Retagging
import Mathlib.Data.Finset.Basic
import Mathlib.Logic.Function.Basic

/-!
# Tags on single posts

What posts show is followed name by name as tags are put on one post or taken off it. Making a tag and
shifting a count shows on no post, and a tagging more or less shows on its post only. So putting names on
a post adds them to what it showed, and taking them off removes them.
-/

namespace Imageboard

namespace Contents

variable {c d : Contents} {t : Tag} {name : String} {postId : Int} {names : Int → Finset String}

/-- The store's rules hold, and each post shows the given names. -/
structure Shows (names : Int → Finset String) (c : Contents) : Prop extends TagRules c where
  shown : c.tagNames = names

/-- What a new tag leaves: it is there under its name, and no post shows it. -/
theorem Shows.addTag (h : Shows names c) {category : Int} {stamp : Value}
    (hd : c.addTag name category stamp = .ok (t, d)) : Shows names d ∧ t ∈ d.tags ∧ t.name = name := by
  rw [Contents.addTag] at hd
  split at hd
  · contradiction
  next hfree =>
    have hnone : ¬ (c.findTag? name).isSome = true := by
      simpa [findTag?] using hfree
    obtain ⟨rfl, rfl⟩ := Prod.mk.inj (Except.ok.inj hd)
    have hmade : c.withTag name category stamp =
        { c with tags := c.tags ++ [c.freshTag name category stamp] } := if_neg hnone
    have hshows : Shows names (c.withTag name category stamp) :=
      ⟨h.toTagRules.withTag, h.toTagRules.tagNames_withTag.trans h.shown⟩
    rw [hmade] at hshows
    exact ⟨hshows, List.mem_append_right _ (List.mem_singleton.2 rfl), rfl⟩

/-- Changes of tags that leave ids and names alone show on no post. -/
theorem Shows.mapTags {p : Tag → Bool} {f : Tag → Tag} (h : Shows names c)
    (hid : ∀ t, (f t).id = t.id) (hname : ∀ t, (f t).name = t.name) : Shows names (c.mapTags p f) :=
  ⟨h.toTagRules.mapTags' hid hname, (h.toTagRules.tagNames_mapTags hid hname).trans h.shown⟩

/-- Stamping posts shows on no post. -/
theorem Shows.touch (h : Shows names c) (ids : List Int) (stamp : Value) :
    Shows names (c.touch ids stamp) := by
  have hids : (c.touch ids stamp).posts.map (·.id) = c.posts.map (·.id) := by
    simp only [Contents.touch, mapPosts, List.map_map]
    refine List.map_congr_left fun p _ => ?_
    dsimp only [Function.comp]
    split <;> rfl
  exact ⟨h.toTagRules.congr rfl rfl hids, (tagNames_congr rfl rfl).trans h.shown⟩

/-- A tagging more shows on its post. -/
theorem Shows.addTagging (h : Shows names c) (ht : t ∈ c.tags) {added : Bool}
    (hd : c.addTagging ⟨postId, t.id⟩ = .ok (added, d)) :
    Shows (Function.update names postId (insert t.name (names postId))) d := by
  obtain ⟨-, hthere, rfl⟩ | ⟨-, hnew, hpost, htag, rfl⟩ := addTagging_eq_ok hd
  · have hshown : t.name ∈ names postId := h.shown ▸ (h.name_mem_tagNames ht).2 hthere
    rwa [Finset.insert_eq_of_mem hshown, Function.update_eq_self]
  have hmem (g : Tagging) : g ∈ c.taggings ++ [⟨postId, t.id⟩] ↔
      g ∈ c.taggings ∨ g = ⟨postId, t.id⟩ := by simp
  have hrules : TagRules { c with taggings := c.taggings ++ [⟨postId, t.id⟩] } := by
    refine ⟨⟨?_, fun g hg => ?_⟩, h.tagIds, h.tagNames, h.postIds, fun g hg => ?_⟩
    · exact List.nodup_append_comm.1 (List.nodup_cons.2 ⟨hnew, h.distinct⟩)
    · rcases (hmem g).1 hg with hg | rfl
      · exact h.refers g hg
      · exact htag
    · rcases (hmem g).1 hg with hg | rfl
      · exact h.refersToPosts g hg
      · exact hpost
  refine ⟨hrules, funext fun q => Finset.ext fun x => ?_⟩
  rw [hrules.mem_tagNames, ← h.shown]
  simp only [hmem, Tagging.mk.injEq]
  by_cases hq : q = postId
  · subst hq
    rw [Function.update_self, Finset.mem_insert, h.mem_tagNames]
    constructor
    · rintro ⟨u, hu, rfl, hg | ⟨-, hid⟩⟩
      · exact Or.inr ⟨u, hu, rfl, hg⟩
      · exact Or.inl ((h.id_eq_iff hu ht).1 hid)
    · rintro (rfl | ⟨u, hu, rfl, hg⟩)
      · exact ⟨t, ht, rfl, Or.inr ⟨rfl, rfl⟩⟩
      · exact ⟨u, hu, rfl, Or.inl hg⟩
  · rw [Function.update_of_ne hq, h.mem_tagNames]
    simp [hq]

/-- A tagging less does not show on its post any more. -/
theorem Shows.removeTagging (h : Shows names c) (ht : t ∈ c.tags) :
    Shows (Function.update names postId ((names postId).erase t.name))
      (c.removeTagging ⟨postId, t.id⟩).2 := by
  have hmem (g : Tagging) : g ∈ (c.removeTagging ⟨postId, t.id⟩).2.taggings ↔
      g ∈ c.taggings ∧ g ≠ ⟨postId, t.id⟩ := by simp [Contents.removeTagging]
  have hrules : (c.removeTagging ⟨postId, t.id⟩).2.TagRules :=
    ⟨⟨h.distinct.filter _, fun g hg => h.refers g ((hmem g).1 hg).1⟩, h.tagIds, h.tagNames, h.postIds,
      fun g hg => h.refersToPosts g ((hmem g).1 hg).1⟩
  refine ⟨hrules, funext fun q => Finset.ext fun x => ?_⟩
  rw [hrules.mem_tagNames, ← h.shown]
  simp only [hmem, ne_eq, Tagging.mk.injEq, not_and]
  by_cases hq : q = postId
  · subst hq
    rw [Function.update_self, Finset.mem_erase, h.mem_tagNames]
    constructor
    · rintro ⟨u, hu, rfl, hg, hid⟩
      exact ⟨fun hname => hid rfl ((h.id_eq_iff hu ht).2 hname), u, hu, rfl, hg⟩
    · rintro ⟨hname, u, hu, rfl, hg⟩
      exact ⟨u, hu, rfl, hg, fun _ hid => hname ((h.id_eq_iff hu ht).1 hid)⟩
  · rw [Function.update_of_ne hq, h.mem_tagNames]
    simp [hq, Contents.removeTagging]

/-- A name that no tag has need not be taken off. -/
theorem Shows.erase (h : Shows names c) (hnone : c.findTag? name = none) :
    Shows (Function.update names postId ((names postId).erase name)) c := by
  have habsent : name ∉ names postId := by
    rw [← h.shown, h.mem_tagNames]
    rintro ⟨u, hu, hname, -⟩
    exact findTag?_eq_none_iff.1 hnone u hu hname
  rwa [Finset.erase_eq_of_notMem habsent, Function.update_eq_self]

end Contents

namespace Store

open Work Contents

variable {t : Tag} {postId : Int} {names : Int → Finset String} {xs : List String}

/-- The tag that is found or made has the stored spelling of the name, and no post shows it anew. -/
theorem leads_findOrCreateTag_shows (name : String) :
    Leads (Shows names) (findOrCreateTag name none) fun t c =>
      Shows names c ∧ t ∈ c.tags ∧ t.name = TagName.normalize name := by
  rw [findOrCreateTag]
  dsimp only
  refine Leads.ite (fun _ => leads_throw _) fun _ => (leads_read _ _ _).bind fun found => ?_
  cases found with
  | some t =>
    refine Leads.imp (leads_pure (Q := fun t c => Shows names c ∧ t ∈ c.tags ∧
      t.name = TagName.normalize name) t) ?_ fun _ _ h => h
    rintro c ⟨hc, hfound⟩
    obtain ⟨ht, hname⟩ := hc.findTag?_eq_some_iff.1 hfound.symm
    exact ⟨hc, ht, hname⟩
  | none =>
    exact leads_get.bind fun s => leads_write fun c t d hc hd => hc.1.addTag hd

/-- Changing a post count shows on no post. -/
theorem keeps_shiftPostCount_shows (id amount : Int) : Keeps (Shows names) (shiftPostCount id amount) := by
  refine keeps_write fun c _ d hc hd => ?_
  obtain ⟨-, rfl⟩ := Prod.mk.inj (Except.ok.inj hd)
  exact hc.mapTags (fun _ => rfl) fun _ => rfl

/-- Stamping a post shows on no post. -/
theorem keeps_touchIfChanged_shows (postId : Int) (changes : Nat) :
    Keeps (Shows names) (touchIfChanged postId changes) :=
  keeps_touchIfChanged (fun _ ids stamp hc => hc.touch ids stamp) _ _

/-- A tag that is there is put on a post. -/
theorem leads_addTagging_shows (postId : Int) (t : Tag) :
    Leads (fun c => Shows names c ∧ t ∈ c.tags) (addTagging postId t.id) fun _ =>
      Shows (Function.update names postId (insert t.name (names postId))) :=
  leads_writeReferring fun _ _ _ hc hd => hc.1.addTagging hc.2 hd

/-- A tag that is there is taken off a post. -/
theorem leads_removeTagging_shows (postId : Int) (t : Tag) :
    Leads (fun c => Shows names c ∧ t ∈ c.tags) (removeTagging postId t.id) fun _ =>
      Shows (Function.update names postId ((names postId).erase t.name)) := by
  refine leads_writeReferring fun c _ d hc hd => ?_
  obtain ⟨-, rfl⟩ := Prod.mk.inj (Except.ok.inj hd)
  exact hc.1.removeTagging hc.2

/-- Names that are put on a post one after the other are added to what it shows. -/
theorem leads_addEach_shows (postId : Int) (hxs : ∀ x ∈ xs, TagName.normalize x = x) :
    Leads (Shows names) (addEach postId xs) fun _ =>
      Shows (Function.update names postId (names postId ∪ xs.toFinset)) := by
  induction xs generalizing names with
  | nil =>
    rw [List.toFinset_nil, Finset.union_empty, Function.update_eq_self]
    exact (keeps_pure _).leads
  | cons x rest ih =>
    obtain ⟨hx, hrest⟩ := List.forall_mem_cons.1 hxs
    have hshown : Function.update (Function.update names postId (insert x (names postId))) postId
        (Function.update names postId (insert x (names postId)) postId ∪ rest.toFinset) =
          Function.update names postId (names postId ∪ (x :: rest).toFinset) := by
      rw [Function.update_idem, Function.update_self, List.toFinset_cons, Finset.insert_union,
        Finset.union_insert]
    have hafter (added : Bool) : Leads (Shows (Function.update names postId (insert x (names postId))))
        (addEach postId rest >>= fun more => pure (if added then more + 1 else more)) fun _ =>
          Shows (Function.update names postId (names postId ∪ (x :: rest).toFinset)) :=
      (hshown ▸ ih hrest).bind fun _ => (keeps_pure _).leads
    refine (leads_findOrCreateTag_shows x).bind fun t => ?_
    rw [hx]
    refine Leads.bind (Q := fun _ => Shows (Function.update names postId (insert x (names postId))))
      ?_ fun added => Leads.ite (fun _ => (keeps_shiftPostCount_shows _ _).leads.bind fun _ =>
        hafter added) fun _ => hafter added
    rintro s added m others ⟨hs, ht, rfl⟩ hrun
    exact leads_addTagging_shows postId t s added m ⟨hs, ht⟩ hrun

/-- Names that are taken off a post one after the other are removed from what it shows. -/
theorem leads_removeEach_shows (postId : Int) (hxs : ∀ x ∈ xs, TagName.normalize x = x) :
    Leads (Shows names) (removeEach postId xs) fun _ =>
      Shows (Function.update names postId (names postId \ xs.toFinset)) := by
  induction xs generalizing names with
  | nil =>
    rw [List.toFinset_nil, Finset.sdiff_empty, Function.update_eq_self]
    exact (keeps_pure _).leads
  | cons x rest ih =>
    obtain ⟨hx, hrest⟩ := List.forall_mem_cons.1 hxs
    have hshown : Function.update (Function.update names postId ((names postId).erase x)) postId
        (Function.update names postId ((names postId).erase x) postId \ rest.toFinset) =
          Function.update names postId (names postId \ (x :: rest).toFinset) := by
      rw [Function.update_idem, Function.update_self, List.toFinset_cons, Finset.sdiff_insert,
        Finset.erase_sdiff_comm]
    have hafter : Leads (Shows (Function.update names postId ((names postId).erase x)))
        (removeEach postId rest) fun _ =>
          Shows (Function.update names postId (names postId \ (x :: rest).toFinset)) := hshown ▸ ih hrest
    rw [removeEach, hx]
    refine (leads_read _ _ _).bind fun found => ?_
    cases found with
    | none => exact hafter.imp (fun c hc => hc.1.erase hc.2.symm) fun _ _ h => h
    | some t =>
      refine Leads.bind (Q := fun _ => Shows (Function.update names postId ((names postId).erase x)))
        ?_ fun removed => Leads.ite
          (fun _ => (keeps_shiftPostCount_shows _ _).leads.bind fun _ =>
            hafter.bind fun _ => (keeps_pure _).leads)
          fun _ => hafter.bind fun _ => (keeps_pure _).leads
      rintro s removed m others ⟨hs, hfound⟩ hrun
      obtain ⟨ht, rfl⟩ := hs.findTag?_eq_some_iff.1 hfound.symm
      exact leads_removeTagging_shows postId t s removed m ⟨hs, ht⟩ hrun

/-- Putting names on a post adds them to what it shows. -/
theorem leads_addPostTags_shows (postId : Int) (hxs : ∀ x ∈ xs, TagName.normalize x = x) :
    Leads (Shows names) (addPostTags postId xs) fun _ =>
      Shows (Function.update names postId (names postId ∪ xs.toFinset)) :=
  (leads_addEach_shows postId hxs).bind fun _ => (keeps_touchIfChanged_shows _ _).leads

/-- Taking names off a post removes them from what it shows. -/
theorem leads_removePostTags_shows (postId : Int) (hxs : ∀ x ∈ xs, TagName.normalize x = x) :
    Leads (Shows names) (removePostTags postId xs) fun _ =>
      Shows (Function.update names postId (names postId \ xs.toFinset)) :=
  (leads_removeEach_shows postId hxs).bind fun _ => (keeps_touchIfChanged_shows _ _).leads

end Store

end Imageboard
