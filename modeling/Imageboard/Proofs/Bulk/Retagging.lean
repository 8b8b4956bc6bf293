import Imageboard.Proofs.Bulk.Performing
import Imageboard.Proofs.Query.Classifying
import Imageboard.Proofs.Relationship.Reaching
import Imageboard.Proofs.Tagging.SinglePosts

/-!
# What a mass update changes

What a job takes off and puts on depends on its two texts and on the relationships in force alone, so it
is the same whenever it is found out on one store. A tag that goes on does not come off, and all that it
implies goes on with it. When the update succeeds, the posts that its query selected have lost the former
tags and gained the latter, and when it fails, nothing has changed.
-/

namespace Imageboard.Bulk

open Query Contents SearchWork

variable {config : Config} {job : Job} {c : Contents} {w v : Searcher} {changes : TagChanges}

/-! ## Finding out the changes -/

/-- What the plain tags among some terms stand for, with whether they are excluded. -/
def resolved (c : Contents) (ts : List Term) : List (Bool × String) :=
  (ts.filter (·.kind = .tag)).map fun t => (t.polarity = .negated, c.standsFor t.name)

/-- The tags that come off and those that go on, for the terms of a query and of a replacement. -/
def changesFor (c : Contents) (named replacing : List Term) : TagChanges :=
  let excluded := ((resolved c replacing).filter (·.1)).map (·.2)
  let wanted := ((resolved c replacing).filter (!·.1)).map (·.2)
  let expanded := withImplied c.implicationGraph wanted
  ⟨(distinct ((resolved c named).map (·.2) ++ excluded)).filter fun n => !expanded.contains n,
    distinct expanded⟩

/-- A searcher with a right memory finds out right what tags stand for. -/
theorem of_runOn_resolveTags {ts : List Term} {found : List (Bool × String)} (h : w.Faithful)
    (hrun : (resolveTags ts).runOn w = (.ok found, v)) :
    found = resolved w.store.contents ts ∧ v.store = w.store ∧ v.Faithful := by
  induction ts generalizing w v found with
  | nil =>
    obtain ⟨hfound, rfl⟩ := Prod.mk.inj hrun
    exact ⟨(Except.ok.inj hfound).symm, rfl, h⟩
  | cons t rest ih =>
    rw [resolveTags] at hrun
    split at hrun
    next htag =>
      obtain ⟨name, u, hname, hrun⟩ := runOn_bind_eq_ok.1 hrun
      obtain ⟨more, u', hmore, hdone⟩ := runOn_bind_eq_ok.1 hrun
      obtain ⟨rfl, hstore, hu⟩ := h.of_runOn_resolve hname
      obtain ⟨rfl, hstore', hu'⟩ := ih hu hmore
      obtain ⟨hfound, rfl⟩ := Prod.mk.inj hdone
      rw [← Except.ok.inj hfound, hstore]
      exact ⟨by simp [resolved, htag], hstore'.trans hstore, hu'⟩
    next htag =>
      obtain ⟨rfl, hstore, hv⟩ := ih h hrun
      exact ⟨by simp [resolved, htag], hstore, hv⟩

/-- A searcher with a right memory finds out the changes for the terms of the job. -/
theorem of_runOn_tagChanges (h : w.Faithful)
    (hrun : (tagChanges config job).runOn w = (.ok changes, v)) :
    ∃ named replacing, terms config job.query = .ok named ∧
      terms config job.replacement = .ok replacing ∧
      changes = changesFor w.store.contents named replacing := by
  obtain ⟨named, u, hlift, hrun⟩ := runOn_bind_eq_ok.1 hrun
  obtain ⟨hnamed, rfl⟩ := Prod.mk.inj hlift
  obtain ⟨found, u₁, hfound, hrun⟩ := runOn_bind_eq_ok.1 hrun
  obtain ⟨rfl, hstore₁, hmemory₁⟩ := of_runOn_resolveTags h hfound
  obtain ⟨replacing, u, hlift, hrun⟩ := runOn_bind_eq_ok.1 hrun
  obtain ⟨hreplacing, rfl⟩ := Prod.mk.inj hlift
  obtain ⟨found, u₂, hfound, hrun⟩ := runOn_bind_eq_ok.1 hrun
  obtain ⟨rfl, hstore₂, -⟩ := of_runOn_resolveTags hmemory₁ hfound
  obtain ⟨g, u₃, hgraph, hdone⟩ := runOn_bind_eq_ok.1 hrun
  obtain ⟨hg, -⟩ := Prod.mk.inj hgraph
  obtain ⟨hchanges, -⟩ := Prod.mk.inj hdone
  have hread : (Relationship.implicationGraph.runOn u₂.store).2 = u₂.store :=
    Relationship.reads_implicationGraph u₂.store
  obtain ⟨-, rfl⟩ := Relationship.leads_implicationGraph (P := fun _ => True) u₂.store g u₂.store trivial
    (Prod.ext hg hread)
  refine ⟨named, replacing, hnamed, hreplacing, ?_⟩
  rw [← Except.ok.inj hchanges, hstore₂, hstore₁]
  rfl

/-! ## What they are -/

/-- Some tags with what they imply are these tags and all that can be reached from them. -/
theorem mem_withImplied {g : Relationship.Graph} {wanted : List String} {n : String} :
    n ∈ withImplied g wanted ↔ ∃ a ∈ wanted, n = a ∨ g.Reaches a n := by
  simp only [withImplied, List.mem_append, List.mem_flatMap, Relationship.Graph.mem_implied]
  constructor
  · rintro (hn | ⟨a, ha, -, hreach⟩)
    · exact ⟨n, hn, Or.inl rfl⟩
    · exact ⟨a, ha, Or.inr hreach⟩
  · rintro ⟨a, ha, rfl | hreach⟩
    · exact Or.inl ha
    · by_cases hn : n = a
      · exact Or.inl (hn ▸ ha)
      · exact Or.inr ⟨a, ha, hn, hreach⟩

/-- No tag that goes on comes off. -/
theorem disjoint_changesFor (c : Contents) (named replacing : List Term) :
    (changesFor c named replacing).removals.Disjoint (changesFor c named replacing).additions := by
  intro n hoff hon
  simp only [changesFor, List.mem_filter, mem_distinct] at hoff hon
  simp [hon] at hoff

/-- What a tag that goes on implies goes on too. -/
theorem mem_additions_of_reaches {named replacing : List Term} {a b : String}
    (ha : a ∈ (changesFor c named replacing).additions) (hreach : c.implicationGraph.Reaches a b) :
    b ∈ (changesFor c named replacing).additions := by
  simp only [changesFor, mem_distinct, mem_withImplied] at ha ⊢
  obtain ⟨n, hn, rfl | hfirst⟩ := ha
  · exact ⟨a, hn, Or.inr hreach⟩
  · exact ⟨n, hn, Or.inr (hfirst.trans hreach)⟩

/-- The tags in a text are named as they are stored. -/
theorem normalize_name_of_mem_terms {query : String} {ts : List Term}
    (hts : terms config query = .ok ts) {t : Term} (ht : t ∈ ts) (htag : t.kind = .tag) :
    TagName.normalize t.name = t.name := by
  rw [terms] at hts
  cases htokens : tokenize query with
  | error e =>
    rw [htokens] at hts
    cases hts
  | ok tokens =>
    rw [htokens] at hts
    obtain rfl := Except.ok.inj hts
    obtain ⟨token, -, rfl⟩ := List.mem_map.1 ((firstOfEach_sublist _ _).mem ht)
    exact normalize_name_classifyToken htag

section NormalNames

variable (hnames : ∀ kind, ∀ p ∈ c.inForce kind, TagName.normalize p.2 = p.2)
include hnames

/-- Where the relationships in force lead to names as they are stored, a stored name stands for one. -/
theorem normalize_standsFor {name : String} (h : TagName.normalize name = name) :
    TagName.normalize (c.standsFor name) = c.standsFor name := by
  unfold Contents.standsFor
  cases htarget : c.aliasOf? name with
  | none => exact h
  | some target =>
    have htarget' : TagName.normalize target = target :=
      hnames .alias (name, target) (mem_inForce_of_aliasOf? htarget)
    rwa [Option.getD_some]

/-- What the tags in a text stand for is named as it is stored. -/
theorem normalize_of_mem_resolved {query : String} {ts : List Term}
    (hts : terms config query = .ok ts) {p : Bool × String} (hp : p ∈ resolved c ts) :
    TagName.normalize p.2 = p.2 := by
  obtain ⟨t, ht, rfl⟩ := List.mem_map.1 hp
  obtain ⟨hmem, htag⟩ := List.mem_filter.1 ht
  exact normalize_standsFor hnames
    (normalize_name_of_mem_terms hts hmem (of_decide_eq_true htag))

/-- What comes off and what goes on is named as it is stored. -/
theorem normalize_of_mem_changesFor {named replacing : List Term}
    (hnamed : terms config job.query = .ok named)
    (hreplacing : terms config job.replacement = .ok replacing) :
    (∀ n ∈ (changesFor c named replacing).removals, TagName.normalize n = n) ∧
      ∀ n ∈ (changesFor c named replacing).additions, TagName.normalize n = n := by
  have hpicked (q : Bool × String → Bool) {n : String}
      (hn : n ∈ ((resolved c replacing).filter q).map (·.2)) : TagName.normalize n = n := by
    obtain ⟨p, hp, rfl⟩ := List.mem_map.1 hn
    exact normalize_of_mem_resolved hnames hreplacing (List.mem_of_mem_filter hp)
  constructor
  · intro n hn
    rcases List.mem_append.1 (mem_distinct.1 (List.mem_of_mem_filter hn)) with hn | hn
    · obtain ⟨p, hp, rfl⟩ := List.mem_map.1 hn
      exact normalize_of_mem_resolved hnames hnamed hp
    · exact hpicked _ hn
  · intro n hn
    obtain ⟨a, ha, rfl | hreach⟩ := mem_withImplied.1 (mem_distinct.1 hn)
    · exact hpicked _ ha
    · obtain ⟨x, hedge⟩ := hreach.exists_edge
      exact hnames .implication (x, n) (mem_edges_implicationGraph.1 hedge)

end NormalNames

/-! ## Carrying them out -/

/-- What a post shows after some tags came off it and others went on. -/
def TagChanges.after (changes : TagChanges) (shown : Finset String) : Finset String :=
  shown \ changes.removals.toFinset ∪ changes.additions.toFinset

/-- Changing a post twice is changing it once. -/
theorem TagChanges.after_after (changes : TagChanges) (shown : Finset String) :
    changes.after (changes.after shown) = changes.after shown := by
  ext n
  simp only [after, Finset.mem_union, Finset.mem_sdiff]
  tauto

/-- Changing the tags of some posts changes what these show, however often they are listed. -/
theorem leads_retag_shows {names : Int → Finset String}
    (hremovals : ∀ n ∈ changes.removals, TagName.normalize n = n)
    (hadditions : ∀ n ∈ changes.additions, TagName.normalize n = n) (postIds : List Int) :
    Work.Leads (Shows names) (retag changes postIds) fun _ => Shows fun id =>
      if id ∈ postIds then changes.after (names id) else names id := by
  induction postIds generalizing names with
  | nil => exact (Work.keeps_pure _).leads.imp (fun _ h => h) fun _ _ h => by simpa using h
  | cons postId rest ih =>
    have hafter : (fun id => if id ∈ rest then
        changes.after (Function.update names postId (changes.after (names postId)) id)
          else Function.update names postId (changes.after (names postId)) id) =
        fun id => if id ∈ postId :: rest then changes.after (names id) else names id := by
      funext id
      by_cases hid : id = postId
      · subst hid
        rw [Function.update_self, if_pos List.mem_cons_self, changes.after_after, ite_self]
      · rw [Function.update_of_ne hid]
        simp [hid]
    refine (Store.leads_removePostTags_shows postId hremovals).bind fun _ => ?_
    refine Work.Leads.bind (Q := fun _ => Shows (Function.update names postId
      (changes.after (names postId)))) ?_ fun _ => hafter ▸ ih
    refine (Store.leads_addPostTags_shows postId hadditions).imp (fun _ h => h) fun _ d hd => ?_
    rwa [Function.update_idem, Function.update_self] at hd

/-- What a mass update has done to the contents when it is through with some posts. -/
structure CarriedOut (changes : TagChanges) (postIds : List Int) (c d : Contents) : Prop where
  selected : ∀ id ∈ postIds, d.tagNames id =
    c.tagNames id \ changes.removals.toFinset ∪ changes.additions.toFinset
  others : ∀ id ∉ postIds, d.tagNames id = c.tagNames id
  counted : d.Counted

/-- Changing the tags of some posts carries the changes out. -/
theorem carriedOut_of_runOn_retag {s m : Store} {postIds : List Int} (hrules : s.contents.TagRules)
    (hcounted : s.contents.Counted)
    (hremovals : ∀ n ∈ changes.removals, TagName.normalize n = n)
    (hadditions : ∀ n ∈ changes.additions, TagName.normalize n = n)
    (hrun : (retag changes postIds).runOn s = (.ok (), m)) :
    CarriedOut changes postIds s.contents m.contents := by
  have hshown := (leads_retag_shows hremovals hadditions postIds s () m ⟨hrules, rfl⟩ hrun).shown
  have hcounts := leads_retag Store.taggingKeeps_counted changes postIds s () m
    (countedBut_nil_iff.2 ⟨hrules.toTaggingRules, hcounted⟩) hrun
  refine ⟨fun id hid => ?_, fun id hid => ?_, (countedBut_nil_iff.1 hcounts).2⟩
  · exact (congrFun hshown id).trans (if_pos hid)
  · exact (congrFun hshown id).trans (if_neg hid)

/-- In a store with right counts whose relationships in force lead to names as they are stored, let a
searcher with a right memory find out the changes of a job. Then nothing that comes off goes on, and what
goes on comes with all that it implies. If this or another such searcher does the job, the changes are
carried out on the posts that the query selects, or, if it fails, nothing has changed. -/
theorem perform_carriesOut {x : Searcher} (hmemory : w.Faithful) (hmemory' : x.Faithful)
    (hstore : x.store = w.store) (hrules : w.store.contents.TagRules)
    (hcounted : w.store.contents.Counted)
    (hnames : ∀ kind, ∀ p ∈ w.store.contents.inForce kind, TagName.normalize p.2 = p.2)
    (config : Config) (job : Job) :
    (∀ changes v, (tagChanges config job).runOn w = (.ok changes, v) →
      changes.removals.Disjoint changes.additions ∧
      (∀ a ∈ changes.additions, ∀ b, w.store.contents.implicationGraph.Reaches a b →
        b ∈ changes.additions) ∧
      ∀ n t, (perform config job).runOn x = (.ok n, t) → ∃ plan u, ∃ postIds : List Int,
        (Searcher.compile config (viewerOf job) job.query).runOn x = (.ok plan, u) ∧
        (Search.selectPostIds plan none 0).runOn w.store = (.ok postIds, w.store) ∧
        CarriedOut changes postIds w.store.contents t.store.contents) ∧
    ∀ e t, (perform config job).runOn x = (.error e, t) → t.store.contents = w.store.contents := by
  rw [← hstore] at hrules hcounted hnames ⊢
  refine ⟨fun changes v hchanges => ?_, fun e t => contents_of_perform_eq_error⟩
  obtain ⟨named, replacing, hnamed, hreplacing, rfl⟩ := of_runOn_tagChanges hmemory hchanges
  rw [← hstore]
  refine ⟨disjoint_changesFor _ _ _, fun a ha b => mem_additions_of_reaches ha, fun n t hrun => ?_⟩
  obtain ⟨-, plan, changes, postIds, hperformed, -⟩ := exists_performed hrun
  obtain ⟨u, u', hplan, hchanges'⟩ := hperformed.planned
  obtain ⟨-, hstore', hmemory'⟩ := hmemory'.of_runOn_compile hplan
  -- the changes that are found out with the plan made are those for the same terms in the same store
  obtain ⟨named', replacing', hnamed', hreplacing', rfl⟩ := of_runOn_tagChanges hmemory' hchanges'
  obtain rfl := Except.ok.inj (hnamed.symm.trans hnamed')
  obtain rfl := Except.ok.inj (hreplacing.symm.trans hreplacing')
  obtain ⟨m, hretag, hcontents⟩ := hperformed.changed
  obtain ⟨hremovals, hadditions⟩ := normalize_of_mem_changesFor hnames hnamed hreplacing
  rw [hstore'] at hretag
  refine ⟨plan, u, postIds, hplan, hperformed.selected, ?_⟩
  rw [hcontents]
  exact carriedOut_of_runOn_retag (s := x.store.begun) hrules hcounted hremovals hadditions hretag

/-- Contents in which a pussycat is a cat and a kitten an animal. -/
def shelterContents : Contents :=
  { Search.petContents with
    aliases := [⟨1, "pussycat", "cat", .active, none, none, none, .null, .null⟩]
    implications := [⟨1, "kitten", "animal", .active, none, none, none, .null, .null⟩] }

/-- A mass update of dogs, by which they become cats and kittens. -/
def dogsToCats : Job :=
  ⟨"dog", "pussycat kitten -cat", some 1, some "alice"⟩

/-- The post with a dog loses it and gains what takes its place. -/
theorem perform_carriesOut_dogs :
    let w := Search.searcherOf shelterContents
    let changes : TagChanges := ⟨["dog"], ["cat", "kitten", "animal"]⟩
    ∃ v t, (tagChanges .standard dogsToCats).runOn w = (.ok changes, v) ∧
      (perform .standard dogsToCats).runOn w = (.ok 1, t) ∧
      changes.removals.Disjoint changes.additions ∧ ∃ plan u, ∃ postIds : List Int,
        (Searcher.compile .standard (viewerOf dogsToCats) dogsToCats.query).runOn w = (.ok plan, u) ∧
        (Search.selectPostIds plan none 0).runOn w.store = (.ok postIds, w.store) ∧
        CarriedOut changes postIds shelterContents t.store.contents := by
  intro w changes
  obtain ⟨v, hchanges⟩ : ∃ v, (tagChanges .standard dogsToCats).runOn w = (.ok changes, v) :=
    exists_runOn_eq_ok (by decide +kernel)
  obtain ⟨t, hdone⟩ : ∃ t, (perform .standard dogsToCats).runOn w = (.ok 1, t) :=
    exists_runOn_eq_ok (by decide +kernel)
  have hrules : shelterContents.TagRules :=
    ⟨⟨by decide, by decide⟩, by decide, by decide, by decide, by decide⟩
  have hcounted : shelterContents.Counted := by decide
  have hnames : ∀ kind, ∀ p ∈ shelterContents.inForce kind, TagName.normalize p.2 = p.2 := by
    intro kind
    cases kind <;> decide +kernel
  have hfaithful : w.Faithful := Searcher.faithful_fresh _ _
  obtain ⟨hcarried, -⟩ :=
    perform_carriesOut hfaithful hfaithful rfl hrules hcounted hnames .standard dogsToCats
  obtain ⟨hdisjoint, -, hperformed⟩ := hcarried changes v hchanges
  exact ⟨v, t, hchanges, hdone, hdisjoint, hperformed 1 t hdone⟩

end Imageboard.Bulk
