import Imageboard.Proofs.Relationship.Retargeting
import Imageboard.Proofs.Tagging.HandingOn
import Imageboard.Proofs.Tagging.Replacing

/-!
# Approving an alias renames a tag

An approved alias rewrites five tables: the alias comes into force, other aliases to its antecedent
are retargeted, implications are moved, a category is handed on and posts are retagged. Together this
is one renaming, which puts the consequent for the antecedent wherever a tag name counts: on posts, in
implications, and in what names stand for.
-/

namespace Imageboard

namespace Contents

/-- What the store enforces on the tables that an alias is approved in: all are there, records obey
their rules, and integers can be taken by statements. -/
structure Sound (c : Contents) : Prop extends TagRules c where
  whole : c.missing = []
  aliases : Lawful .alias c.aliases
  implications : Lawful .implication c.implications
  postsFit : ∀ p ∈ c.posts, (Value.integer p.id).fits
  aliasesFit : ∀ r ∈ c.aliases, (Value.integer r.id).fits
  implicationsFit : ∀ r ∈ c.implications, (Value.integer r.id).fits

/-- The contents after one tag name has been put for another: on posts, in implications and in what
names stand for. Post counts are right, the new name takes the category of the old one if only the
latter had one, the posts that changed are stamped, and nothing else is different. -/
structure RenamedTo (general : Int) (stamp : Value) (oldName newName : String) (c d : Contents) :
    Prop where
  tagNames : ∀ postId, d.tagNames postId = (c.tagNames postId).image (Store.renamed oldName newName)
  implications : (d.inForce .implication).toFinset =
    ((c.inForce .implication).toFinset.image (Store.renamedPair oldName newName)).filter
      fun p => p.1 ≠ p.2
  standsFor : ∀ name, d.standsFor name = Store.renamed oldName newName (c.standsFor name)
  counted : d.Counted
  oldCount : d.postCountOf oldName = 0
  newCount : d.postCountOf newName = (c.posts.countP fun p =>
    oldName ∈ c.tagNames p.id ∨ newName ∈ c.tagNames p.id : Nat)
  others : ∀ name, name ≠ oldName → name ≠ newName → d.findTag? name = c.findTag? name
  oldCategory : d.categoryOf general oldName = c.categoryOf general oldName
  newCategory : d.categoryOf general newName =
    if c.categoryOf general oldName ≠ general ∧ c.categoryOf general newName = general then
      c.categoryOf general oldName
    else c.categoryOf general newName
  posts : d.posts = c.posts.map fun p =>
    if oldName ∈ c.tagNames p.id then { p with updatedAt := stamp } else p
  elsewhere : { d with
    tags := c.tags
    posts := c.posts
    taggings := c.taggings
    aliases := c.aliases
    implications := c.implications } = c

end Contents

namespace Relationship

open Store Work Contents

variable {s₀ : Store} {c : Contents} {r : Relationship} {approverId : Option Int}

/-- When the relationships have been moved, the category is handed on and the posts are retagged. -/
theorem attains_finishAlias {old new : Tag} (hwhole : c.missing = []) (h : c.TagRules)
    (hold : c.findTag? r.antecedent = some old) (hnew : c.findTag? r.consequent = some new)
    (hne : r.antecedent ≠ r.consequent) (hname : TagName.Storable r.consequent)
    (hgeneral : (Value.integer s₀.categories.generalCode).fits) (hfit : c.TagsFit 0)
    (hposts : ∀ p ∈ c.posts, (Value.integer p.id).fits) :
    Attains s₀ c (do
      let general := (← get).categories.generalCode
      if old.category ≠ general ∧ new.category = general then
        setTagCategory new.id old.category
      let count ← replaceTagOnPosts r.antecedent r.consequent
      if false then
        let _ ← renamePages r.antecedent r.consequent
      return count) fun n d =>
      n = c.carrierCount r.antecedent ∧
        d = (c.withHandedOn old new s₀.categories.generalCode s₀.stamp).retag old.id new.id
          s₀.stamp := by
  let general := s₀.categories.generalCode
  let after := c.withHandedOn old new general s₀.stamp
  obtain ⟨holdMem, -⟩ := h.findTag?_eq_some_iff.1 hold
  obtain ⟨hnewMem, -⟩ := h.findTag?_eq_some_iff.1 hnew
  have hafterWhole : after.missing = [] := by
    change (c.withHandedOn old new general s₀.stamp).missing = []
    rw [withHandedOn_eq]
    exact hwhole
  have hold' : after.findTag? r.antecedent = some old :=
    (h.findTag?_withHandedOn hnew hne).trans hold
  obtain ⟨new', hnew', hid, -⟩ : ∃ t, after.findTag? r.consequent = some t ∧ t.id = new.id ∧ _ :=
    exists_findTag?_withHandedOn hnew
  have hcarriers : after.carrierCount r.antecedent = c.carrierCount r.antecedent := by
    rw [carrierCount, carrierCount, h.tagNames_withHandedOn, posts_withHandedOn]
  have hrest : Attains s₀ after (do
      let count ← replaceTagOnPosts r.antecedent r.consequent
      if false then
        let _ ← renamePages r.antecedent r.consequent
      return count) fun n d =>
      n = c.carrierCount r.antecedent ∧ d = after.retag old.id new.id s₀.stamp := by
    refine (attains_replaceTagOnPosts hafterWhole h.withHandedOn hold' hnew' hname hgeneral
      (hfit.ids old holdMem) (hid ▸ hfit.ids new hnewMem) (by rwa [posts_withHandedOn])).bind ?_
    rintro n d ⟨rfl, rfl⟩
    refine Attains.ite (fun hpages => absurd hpages (by simp)) fun _ => attains_pure ?_
    rw [hcarriers, hid]
    exact ⟨rfl, rfl⟩
  refine attains_get.bind ?_
  rintro s d ⟨hs, rfl⟩
  rw [hs.categories]
  refine Attains.ite (fun hhanded => ?_) fun hkept => ?_
  · have hsame : after = d.withCategory new.id old.category s₀.stamp := if_pos hhanded
    refine (attains_setTagCategory hwhole (hfit.categories old holdMem) (hfit.ids new hnewMem)).bind ?_
    rintro ⟨⟩ e rfl
    rw [← hsame]
    exact hrest
  · have hsame : after = d := if_neg hkept
    rw [hsame] at hrest
    change Attains s₀ d _ fun n e => _ ∧ e = after.retag old.id new.id s₀.stamp
    rw [hsame]
    exact hrest

/-- What the contents are when a renaming is to be made on posts: the tags of both names are there, no
post has changed, and aliases and implications are renamed already. -/
structure Readied (general : Int) (r : Relationship) (c e : Contents) : Prop where
  rules : e.TagRules
  tagNames : e.tagNames = c.tagNames
  others : ∀ name, name ≠ r.antecedent → name ≠ r.consequent → e.findTag? name = c.findTag? name
  categories : ∀ name, e.categoryOf general name = c.categoryOf general name
  posts : e.posts = c.posts
  standsFor : ∀ name, e.standsFor name = renamed r.antecedent r.consequent (c.standsFor name)
  implications : ∀ p, p ∈ e.inForce .implication ↔ p.1 ≠ p.2 ∧
    ∃ q ∈ c.inForce .implication, renamedPair r.antecedent r.consequent q = p
  elsewhere : { e with tags := c.tags, aliases := c.aliases, implications := c.implications } = c

/-- The steps before posts are retagged ready the contents for it. -/
theorem readied_of_steps {c₁ c₂ c₃ e : Contents} {f : Relationship → Relationship} {general : Int}
    {stamp : Value} (hc : c.Sound) (hr : r ∈ c.aliases) (hsource : r.antecedent ∉ c.aliased)
    (htarget : r.consequent ∉ c.aliased) (hf : Relationship.Settles .active f)
    (hc₁ : c₁ = c.mapRelationships .alias (·.id = r.id) f)
    (hc₂ : c₂ = (c₁.withTag r.antecedent general stamp).withTag r.consequent general stamp)
    (hc₃ : c₃ = c₂.mapRelationships .alias
      (fun q => q.consequent = r.antecedent && q.status = .active && q.antecedent ≠ r.consequent)
      fun q => { q with consequent := r.consequent, updatedAt := stamp })
    (hlawful : Lawful .alias c₃.aliases) (hbeside : Beside .implication c₃ e)
    (himplications : ∀ p, p ∈ e.inForce .implication ↔ p.1 ≠ p.2 ∧
      ∃ q ∈ c₃.inForce .implication, renamedPair r.antecedent r.consequent q = p) :
    Readied general r c e := by
  obtain ⟨rs, he⟩ := hbeside
  have hrules₁ : c₁.TagRules := hc.toTagRules.congr (hc₁ ▸ rfl) (hc₁ ▸ rfl) (hc₁ ▸ rfl)
  -- Making the tags changes the list of tags and nothing else.
  have hframe : c₂ = { c₁ with tags := c₂.tags } := by
    rw [hc₂, withTag_eq, withTag_eq]
  have haliases : c₂.aliases = c₁.aliases := by
    rw [hframe]
  have htags : e.tags = c₂.tags := by
    rw [he, hc₃]
    rfl
  have htaggings : e.taggings = c₂.taggings := by
    rw [he, hc₃]
    rfl
  have hposts : e.posts = c₂.posts := by
    rw [he, hc₃]
    rfl
  have hfind : e.findTag? = c₂.findTag? := by
    funext name
    rw [findTag?, findTag?, htags]
  have hrules₂ : c₂.TagRules := hc₂ ▸ hrules₁.withTag.withTag
  have hinForce : e.inForce .alias = (c₁.inForce .alias).map fun p =>
      if p.2 = r.antecedent ∧ p.1 ≠ r.consequent then (p.1, r.consequent) else p := by
    have hsame : e.inForce .alias = c₃.inForce .alias := by
      rw [he]
      rfl
    have hmade : c₂.inForce .alias = c₁.inForce .alias := by
      rw [hframe]
      rfl
    rw [hsame, hc₃, inForce_retarget, hmade]
  constructor
  · exact hrules₂.congr htags htaggings (by rw [hposts])
  · rw [tagNames_congr htags htaggings, hc₂, hrules₁.withTag.tagNames_withTag, hrules₁.tagNames_withTag,
      hc₁]
    rfl
  · intro name hold hnew
    rw [hfind, hc₂, findTag?_withTag_of_ne hnew, findTag?_withTag_of_ne hold, hc₁]
    rfl
  · intro name
    have hsame : e.categoryOf general name = c₂.categoryOf general name := by
      rw [Contents.categoryOf, Contents.categoryOf, hfind]
    rw [hsame, hc₂, categoryOf_withTag, categoryOf_withTag, hc₁]
    rfl
  · rw [hposts, hframe, hc₁]
    rfl
  · have hlawful' : Lawful .alias e.aliases := by
      rw [he]
      exact hlawful
    apply standsFor_renamed hc.aliases hlawful' hsource
    intro p
    rw [hc₁] at hinForce
    exact mem_inForce_retargeted hc.aliases hf hr htarget hinForce
  · have hsame : c₃.inForce .implication = c.inForce .implication := by
      rw [hc₃, hframe, hc₁]
      rfl
    rw [← hsame]
    exact himplications
  · rw [he, hc₃, hframe, hc₁]
    rfl

/-- The alias is put into force, tags are made, aliases are retargeted and implications are moved, all
without fail; then the rest is done. -/
theorem attains_approveAlias (hc : c.Sound) (hfit : c.TagsFit 2)
    (hgeneral : (Value.integer s₀.categories.generalCode).fits)
    (happrover : (Value.ofInteger? approverId).fits) (hr : r ∈ c.aliases)
    (hantecedent : TagName.Storable r.antecedent) (hconsequent : TagName.Storable r.consequent)
    (hsource : r.antecedent ∉ c.aliased) (htarget : r.consequent ∉ c.aliased) :
    Attains s₀ c (approveAlias r approverId false) fun n d => n = c.carrierCount r.antecedent ∧
      ∃ e old new, Readied s₀.categories.generalCode r c e ∧
        e.findTag? r.antecedent = some old ∧ e.findTag? r.consequent = some new ∧
        d = (e.withHandedOn old new s₀.categories.generalCode s₀.stamp).retag old.id new.id
          s₀.stamp := by
  have hne := hc.aliases.proper r hr
  have hfree : ∀ q ∈ c.aliases, clashes .alias { r with status := .active } q = false := by
    intro q hq
    by_contra hclash
    simp only [clashes, Bool.not_eq_false, Bool.and_eq_true, decide_eq_true_eq] at hclash
    obtain ⟨⟨⟨-, hactive⟩, hname⟩, -⟩ := hclash
    exact hsource (List.mem_map.2 ⟨_, mem_inForce.2 ⟨q, hq, hactive, rfl⟩, hname.symm⟩)
  rw [approveAlias]
  refine (attains_setRelationshipStatus hc.whole hc.aliases hr (hc.aliasesFit r hr) happrover rfl
    hfree).bind ?_
  rintro ⟨⟩ c₁ ⟨f, hf, hlawful₁, hc₁⟩
  have hwhole₁ : c₁.missing = [] := hc₁ ▸ hc.whole
  refine (attains_findOrCreateTag hwhole₁ hantecedent hgeneral).bind ?_
  rintro old c' ⟨hc', hold⟩
  have hwhole' : c'.missing = [] := by
    rw [hc', withTag_eq]
    exact hwhole₁
  refine (attains_findOrCreateTag hwhole' hconsequent hgeneral).bind ?_
  rintro new c₂ ⟨hc₂, hnew⟩
  rw [← findTag?_withTag_of_ne hne, ← hc₂] at hold
  rw [hc'] at hc₂
  have hframe : c₂ = { c₁ with tags := c₂.tags } := by
    rw [hc₂, withTag_eq, withTag_eq]
  have hlawful₂ : Lawful .alias c₂.aliases := by
    rw [hframe]
    exact hlawful₁
  refine (attains_retargetAliases (by rw [hframe, hwhole₁]) hlawful₂).bind ?_
  rintro k c₃ ⟨hlawful₃, hc₃⟩
  have himplications₃ : c₃.implications = c.implications := by
    rw [hc₃, hframe, hc₁]
    rfl
  refine (attains_moveImplications hne (by rw [hc₃, hframe, hc₁]; exact hc.whole)
    (himplications₃ ▸ hc.implications) (himplications₃ ▸ hc.implicationsFit)).bind ?_
  rintro k e ⟨hbeside, himplications⟩
  have hready := readied_of_steps hc hr hsource htarget hf hc₁ hc₂ hc₃ hlawful₃ hbeside himplications
  have htags : e.tags = c₂.tags := by
    obtain ⟨rs, he⟩ := hbeside
    rw [he, hc₃]
    rfl
  have hfind : e.findTag? = c₂.findTag? := by
    funext name
    rw [findTag?, findTag?, htags]
  have hfit₂ : c₂.TagsFit 0 := by
    have hfit₁ : c₁.TagsFit 2 := hc₁ ▸ ⟨hfit.ids, hfit.categories, hfit.next⟩
    exact hc₂ ▸ (hfit₁.withTag hgeneral).withTag hgeneral
  have hfitAfter : e.TagsFit 0 := by
    obtain ⟨hids, hcategories, hnext⟩ := hfit₂
    exact ⟨htags ▸ hids, htags ▸ hcategories, htags ▸ hnext⟩
  have hwhole : e.missing = [] := (congrArg Contents.missing hready.elsewhere).trans hc.whole
  refine (attains_finishAlias hwhole hready.rules (hfind ▸ hold) (hfind ▸ hnew) hne hconsequent hgeneral
    hfitAfter (hready.posts ▸ hc.postsFit)).imp ?_
  rintro n d ⟨rfl, rfl⟩
  refine ⟨?_, e, old, new, hready, hfind ▸ hold, hfind ▸ hnew, rfl⟩
  rw [carrierCount, carrierCount, hready.tagNames, hready.posts]

/-- Retagging the posts of readied contents completes the renaming. -/
theorem Readied.renamedTo {e d : Contents} {general : Int} {stamp : Value} {old new : Tag}
    (h : Readied general r c e) (hne : r.antecedent ≠ r.consequent)
    (hold : e.findTag? r.antecedent = some old) (hnew : e.findTag? r.consequent = some new)
    (hd : d = (e.withHandedOn old new general stamp).retag old.id new.id stamp)
    (hcounted : d.Counted) : c.RenamedTo general stamp r.antecedent r.consequent d := by
  have hrules : (e.withHandedOn old new general stamp).TagRules := h.rules.withHandedOn
  have hold' : (e.withHandedOn old new general stamp).findTag? r.antecedent = some old :=
    (h.rules.findTag?_withHandedOn hnew hne).trans hold
  obtain ⟨new', hnew', hid, hcategory⟩ : ∃ t, (e.withHandedOn old new general stamp).findTag?
      r.consequent = some t ∧ t.id = new.id ∧ _ := exists_findTag?_withHandedOn hnew
  obtain ⟨holdMem, hname⟩ := hrules.findTag?_eq_some_iff.1 hold'
  obtain ⟨hnewMem, hname'⟩ := hrules.findTag?_eq_some_iff.1 hnew'
  have hnames : old.name ≠ new'.name := by
    rwa [hname, hname']
  rw [← hid] at hd
  have hsame : (e.withHandedOn old new general stamp).tagNames = c.tagNames := by
    rw [h.rules.tagNames_withHandedOn, h.tagNames]
  have htagNames : ∀ postId, d.tagNames postId =
      (c.tagNames postId).image (renamed r.antecedent r.consequent) := by
    intro postId
    rw [hd, hrules.tagNames_retag holdMem hnewMem hnames, hname, hname', hsame]
  have hposts : d.posts = c.posts.map fun p =>
      if r.antecedent ∈ c.tagNames p.id then { p with updatedAt := stamp } else p := by
    rw [hd, hrules.posts_retag holdMem, posts_withHandedOn, h.posts, hname, hsame]
  have hafterRules : d.TagRules := hd ▸ hrules.retag old.id hnewMem
  have hcarriers (name : String) : d.carrierCount name = c.posts.countP fun p =>
      name ∈ (c.tagNames p.id).image (renamed r.antecedent r.consequent) := by
    simp only [carrierCount, hposts, List.countP_map, htagNames]
    refine List.countP_congr fun p _ => ?_
    dsimp only [Function.comp]
    split <;> rfl
  have hcategories (name : String) : d.categoryOf general name =
      (e.withHandedOn old new general stamp).categoryOf general name := by
    rw [hd, categoryOf_retag]
  -- Neither handing a category on nor retagging changes a relationship.
  have hframe : d = { e with tags := d.tags, posts := d.posts, taggings := d.taggings } := by
    rw [hd, retag_eq, withHandedOn_eq]
  constructor
  · exact htagNames
  · have hkept : d.inForce .implication = e.inForce .implication := by
      rw [hframe]
      rfl
    ext p
    simp only [hkept, List.mem_toFinset, h.implications, Finset.mem_filter, Finset.mem_image]
    tauto
  · intro name
    have hkept : d.standsFor name = e.standsFor name := by
      rw [hframe]
      rfl
    rw [hkept, h.standsFor]
  · exact hcounted
  · rw [hcounted.postCountOf_eq hafterRules, hcarriers, List.countP_eq_zero.2]
    · rfl
    · intro p _
      simp [renamed_ne hne]
  · rw [hcounted.postCountOf_eq hafterRules, hcarriers]
    congr 1
    refine List.countP_congr fun p _ => ?_
    simp only [Finset.mem_image, decide_eq_true_eq, renamed]
    constructor
    · rintro ⟨x, hx, heq⟩
      by_cases hxold : x = r.antecedent
      · exact Or.inl (hxold ▸ hx)
      · rw [if_neg hxold] at heq
        exact Or.inr (heq ▸ hx)
    · rintro (hx | hx)
      · exact ⟨_, hx, if_pos rfl⟩
      · exact ⟨_, hx, if_neg hne.symm⟩
  · intro name hother hother'
    rw [hd, hrules.findTag?_retag holdMem hnewMem (hname ▸ hother) (hname' ▸ hother'),
      h.rules.findTag?_withHandedOn hnew hother', h.others name hother hother']
  · rw [hcategories, Contents.categoryOf, hold', ← h.categories, Contents.categoryOf, hold]
  · rw [hcategories, Contents.categoryOf, hnew', ← h.categories, ← h.categories, Contents.categoryOf,
      Contents.categoryOf, hold, hnew]
    exact hcategory
  · exact hposts
  · rw [hframe]
    exact congrArg (fun b : Contents => { b with posts := c.posts, taggings := c.taggings }) h.elsewhere

/-- Approving an alias between two names that are not aliased succeeds and renames the antecedent to
the consequent; the result is the number of posts that carried the antecedent. -/
theorem runOn_approveAlias {s : Store} (hc : s.contents.Sound) (hcounted : s.contents.Counted)
    (hfit : s.contents.TagsFit 2) (hgeneral : (Value.integer s.categories.generalCode).fits)
    (happrover : (Value.ofInteger? approverId).fits) (hfree : s.heldElsewhere = false)
    (hr : r ∈ s.contents.aliases) (hantecedent : TagName.Storable r.antecedent)
    (hconsequent : TagName.Storable r.consequent) (hsource : r.antecedent ∉ s.contents.aliased)
    (htarget : r.consequent ∉ s.contents.aliased) :
    ∃ n t, (approveAlias r approverId false).runOn s = (.ok n, t) ∧ t.setting = s.setting ∧
      n = s.contents.carrierCount r.antecedent ∧
      s.contents.RenamedTo s.categories.generalCode s.stamp r.antecedent r.consequent t.contents := by
  have hrun := attains_approveAlias hc hfit hgeneral happrover hr hantecedent hconsequent hsource htarget
  have hkeeps : Keeps (CountedBut []) (approveAlias r approverId false) :=
    keeps_approveAlias taggingKeeps_counted
      (relationshipKeeps_of_ignores fun _ _ hc => hc.congr rfl rfl)
      (relationshipKeeps_of_ignores fun _ _ hc => hc.congr rfl rfl)
      (fun _ _ _ hc => hc.congr rfl rfl) r approverId false
  have hstart : CountedBut [] s.contents := countedBut_nil_iff.2 ⟨hc.toTaggingRules, hcounted⟩
  obtain ⟨n, t, hok, hsetting, ⟨hn, e, old, new, hready, hold, hnew, hd⟩, hend⟩ :=
    hrun.and_leads hkeeps.leads hstart s (.refl hfree) rfl
  refine ⟨n, t, hok, hsetting, hn, ?_⟩
  exact hready.renamedTo (hc.aliases.proper r hr) hold hnew hd (countedBut_nil_iff.1 hend).2

/-- A relationship from kittens to cats that waits to be approved. -/
def pendingKitten : Relationship :=
  ⟨2, "kitten", "cat", .pending, none, none, none, .null, .null⟩

/-- Contents in which one post shows a kitten and another one a kitten and a cat, kitties are kittens,
and kittens and cats are animals. -/
def kittenContents : Contents :=
  { Contents.empty with
    tags := [⟨1, "kitten", 1, 2, .null, .null⟩, ⟨2, "cat", 0, 1, .null, .null⟩]
    posts := [PostDraft.toPost {} 1 .null, PostDraft.toPost {} 2 .null]
    taggings := [⟨1, 1⟩, ⟨2, 1⟩, ⟨2, 2⟩]
    aliases := [⟨1, "kitty", "kitten", .active, none, none, none, .null, .null⟩, pendingKitten]
    implications := [⟨1, "kitten", "animal", .active, none, none, none, .null, .null⟩,
      ⟨2, "cat", "animal", .active, none, none, none, .null, .null⟩] }

/-- The contents are sound. -/
theorem sound_kittenContents : kittenContents.Sound where
  distinct := by decide
  refers := by decide
  tagIds := by decide
  tagNames := by decide
  postIds := by decide
  refersToPosts := by decide
  whole := rfl
  aliases := by decide
  implications := by decide
  postsFit := by decide
  aliasesFit := by decide
  implicationsFit := by decide

/-- Kittens are renamed to cats on both posts. -/
theorem runOn_approveAlias_kitten :
    let s : Store := .ofContents kittenContents ⟨0, 0⟩ .standard
    ∃ n t, (approveAlias pendingKitten none false).runOn s = (.ok n, t) ∧ t.setting = s.setting ∧
      n = kittenContents.carrierCount "kitten" ∧
      kittenContents.RenamedTo 0 s.stamp "kitten" "cat" t.contents :=
  runOn_approveAlias sound_kittenContents (by decide) ⟨by decide, by decide, by decide⟩ (by decide)
    (by decide) rfl (by decide) (by decide) (by decide) (by decide) (by decide)

end Relationship

end Imageboard
