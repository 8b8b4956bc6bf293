import Imageboard.Proofs.Query.Classifying
import Imageboard.Proofs.Search.Filtering
import Imageboard.Proofs.Store.Attaining

/-!
# What a count takes in

The plan that counts is that of the query with the filters of the viewer as terms. It selects what the
plan of the query selects for the viewer and, where deleted posts are hidden, the posts that the filter
of the count overlooks: the search hides a deleted post unless it is asked for deleted posts, the count
only if the query does not mention the status at all. For a query that is a single tag, the rows that
it selects are as many as the posts that carry the tag.
-/

namespace Imageboard

/-- A viewer to whom deleted posts are shown. -/
def Viewer.showingDeleted (v : Viewer) : Viewer :=
  { v with hideDeleted := false }

namespace Search

open Query

/-! ## What the filter of a count overlooks -/

/-- Whether a count takes in a deleted post that a search leaves out. -/
def overlooks (viewer : Viewer) (ts : List Term) (p : Post) : Bool :=
  viewer.hideDeleted && !ts.any Term.showsDeleted && p.isDeleted != 0 &&
    (mentionsStatus ts || p.isDeleted != 1)

section Counted

variable {resolve : String → String} {viewer : Viewer} {now : Moment} {ts : List Term} {d e : Draft}
  {c : Contents} {p : Post}

/-- A query that asks for deleted posts mentions the status. -/
theorem mentionsStatus_of_showsDeleted (h : ts.any Term.showsDeleted = true) :
    mentionsStatus ts = true := by
  obtain ⟨t, ht, hshows⟩ := List.any_eq_true.1 h
  simp only [Term.showsDeleted, Bool.and_eq_true] at hshows
  exact List.any_eq_true.2 ⟨t, ht, by simpa using hshows.1⟩

/-- A search leaves out what the count overlooks. -/
theorem Satisfies.overlooks_eq_false (h : Satisfies .standard resolve viewer now ts c p) :
    overlooks viewer ts p = false := by
  rw [← Bool.not_eq_true]
  intro hoverlooked
  simp only [overlooks, Bool.and_eq_true, Bool.not_eq_true', List.any_eq_false, bne_iff_ne] at hoverlooked
  obtain ⟨⟨⟨hhide, hnone⟩, hdeleted⟩, -⟩ := hoverlooked
  exact hdeleted (h.shown hhide fun t ht => by simpa using hnone t ht)

/-- The count takes in what the search finds and what it overlooks of what is found with deleted
posts. -/
theorem satisfies_append_filterTerms_iff_or :
    Satisfies .standard resolve viewer.withoutFilters now (ts ++ filterTerms viewer ts) c p ↔
      Satisfies .standard resolve viewer now ts c p ∨
      Satisfies .standard resolve viewer.showingDeleted now ts c p ∧ overlooks viewer ts p = true := by
  have hfound : Satisfies .standard resolve viewer now ts c p ↔ _ := satisfies_iff_withoutFilters
  have hshown : Satisfies .standard resolve viewer.showingDeleted now ts c p ↔
      Satisfies .standard resolve viewer.withoutFilters now ts c p ∧
      (viewer.safeMode = true → p.rating = "s") ∧ (false = true → _) := satisfies_iff_withoutFilters
  have hmentions : ts.any Term.showsDeleted = true → mentionsStatus ts = true :=
    mentionsStatus_of_showsDeleted
  have hnone : (∀ t ∈ ts, t.showsDeleted = false) ↔ ts.any Term.showsDeleted = false := by
    simp
  rw [satisfies_append_filterTerms_iff, hfound, hshown, hnone, overlooks]
  simp only [← and_assoc]
  clear hfound hshown hnone
  generalize (Satisfies .standard resolve viewer.withoutFilters now ts c p ∧
    (viewer.safeMode = true → p.rating = "s")) = found
  by_cases hdeleted : p.isDeleted = 0
  · simp [hdeleted]
  · cases viewer.hideDeleted <;> cases hany : ts.any Term.showsDeleted <;>
      cases hstatus : mentionsStatus ts <;> simp_all

/-- The rows that a plan draws from depend on its order only. -/
theorem sourceRows_congr {plan other : Plan} (h : plan.order = other.order) :
    sourceRows c plan = sourceRows c other := by
  rw [sourceRows, sourceRows, h]

/-- A draft with the conditions of filters besides leads to the order of the one without. -/
theorem Filtered.order_finish_eq (h : Filtered d e) (viewer other : Viewer) (query text : String) :
    (e.finish viewer query).order = (d.finish other text).order := by
  obtain ⟨ks, hconditions, hfilters⟩ := h.conditions
  have hnone : ∀ k ∈ ks, Draft.idList? k = none := by
    intro k hk
    rcases hfilters k hk with rfl | rfl <;> rfl
  rw [Draft.order_finish, Draft.order_finish, h.order, hconditions, Draft.finalOrder_append hnone]

/-- The plan of a query with its filters selects as many rows as that of the query for the viewer and
those that it overlooks. -/
theorem selectedCount_finish (hd : draftOf .standard resolve viewer now ts = .ok d)
    (he : draftOf .standard resolve viewer.withoutFilters now (ts ++ filterTerms viewer ts) = .ok e)
    (hfiltered : Filtered d e) (query text : String) :
    selectedCount c (e.finish viewer.withoutFilters text) =
      selectedCount c (d.finish viewer query) +
        (selectedRows c (d.finish viewer.showingDeleted query)).countP
          fun r => overlooks viewer ts r.post := by
  have hshown : draftOf .standard resolve viewer.showingDeleted now ts = .ok d := by
    rw [← hd]
    exact draftOf_congr ⟨rfl, rfl⟩
  have hcounted (p : Post) : selects c (e.finish viewer.withoutFilters text) p = true ↔ _ :=
    selects_finish_iff (extends_of_draftOf he)
  have hfound (p : Post) : selects c (d.finish viewer query) p = true ↔ _ :=
    selects_finish_iff (extends_of_draftOf hd)
  have hall (p : Post) : selects c (d.finish viewer.showingDeleted query) p = true ↔ _ :=
    selects_finish_iff (extends_of_draftOf hshown)
  have hsource : sourceRows c (e.finish viewer.withoutFilters text) =
      sourceRows c (d.finish viewer query) := sourceRows_congr (hfiltered.order_finish_eq _ _ _ _)
  have hsource' : sourceRows c (d.finish viewer.showingDeleted query) =
      sourceRows c (d.finish viewer query) :=
    sourceRows_congr (by rw [Draft.order_finish, Draft.order_finish])
  simp only [selectedCount, selectedRows, hsource, hsource', List.countP_filter,
    ← List.countP_eq_length_filter]
  generalize sourceRows c (d.finish viewer query) = rows
  -- The rows are told apart by whether the search finds them.
  rw [List.countP_eq_countP_filter_add rows _ fun r => selects c (d.finish viewer query) r.post,
    List.countP_filter, List.countP_filter, Int.natCast_add]
  congr 2
  · refine List.countP_congr fun r _ => ?_
    rw [Bool.and_eq_true, hcounted, hfound, satisfies_append_filterTerms_iff_or]
    exact ⟨fun h => h.2, fun h => ⟨Or.inl h, h⟩⟩
  · refine List.countP_congr fun r _ => ?_
    rw [Bool.and_eq_true, Bool.and_eq_true, Bool.not_eq_true', ← Bool.not_eq_true, hcounted, hfound, hall,
      satisfies_append_filterTerms_iff_or]
    constructor
    · rintro ⟨hsat | ⟨hsat, hoverlooked⟩, hnot⟩
      · exact absurd hsat hnot
      · exact ⟨hoverlooked, hsat⟩
    · rintro ⟨hoverlooked, hsat⟩
      refine ⟨Or.inr ⟨hsat, hoverlooked⟩, fun h => ?_⟩
      rw [h.overlooks_eq_false] at hoverlooked
      cases hoverlooked

/-- What the plan of a query with its filters binds can be bound if that of the query can. -/
theorem Filtered.fits_countStatement {query text : String} {other : Viewer} {f : Fragment}
    (h : Filtered d e) (hcount : (e.finish viewer.withoutFilters text).countStatement = .ok f)
    (hfrom : (d.finish other query).fromFragment.params.all Value.fits = true)
    (hfits : ∀ k ∈ (d.finish other query).conditions, k.values.all Value.fits = true) :
    f.params.all Value.fits = true := by
  have hsource : (e.finish viewer.withoutFilters text).fromFragment =
      (d.finish other query).fromFragment := by
    rw [Plan.fromFragment, Plan.fromFragment, h.order_finish_eq viewer.withoutFilters other text query]
  obtain ⟨ks, hconditions, hfilters⟩ := h.conditions
  have hall : (e.finish viewer.withoutFilters text).conditions = d.conditions ++ ks := by
    simp [Draft.finish, Draft.viewerConditions, Viewer.withoutFilters, hconditions]
  rw [Plan.fits_countStatement hcount, hsource, hall]
  refine ⟨hfrom, fun k hk => ?_⟩
  rcases List.mem_append.1 hk with hk | hk
  · exact hfits k (List.mem_append_left _ hk)
  · rcases hfilters k hk with rfl | rfl <;> decide

/-- Where posts can be selected by the plan of a query, the rows of the plan with its filters can be
counted. -/
theorem runOn_countPosts_of_selectPostIds {query : String} (text : String) {s : Store}
    {ids : List Int} (hd : draftOf .standard resolve viewer now ts = .ok d)
    (he : draftOf .standard resolve viewer.withoutFilters now (ts ++ filterTerms viewer ts) = .ok e)
    (h : Filtered d e) (hwhole : s.contents.missing = [])
    (hselect : ((selectPostIds (d.finish viewer query) none 0).runOn s).1 = .ok ids) :
    ids = selectedIds s.contents (d.finish viewer query) none 0 ∧
      ((countPosts (e.finish viewer.withoutFilters text)).runOn s).1 =
        .ok (selectedCount s.contents (e.finish viewer.withoutFilters text)) := by
  have hstatable : (d.finish viewer query).Statable := (extends_of_draftOf hd).statable_finish query
  have hstatable' : (e.finish viewer.withoutFilters text).Statable :=
    (extends_of_draftOf he).statable_finish text
  obtain ⟨statement, hstatement⟩ := hstatable.exists_selectStatement none 0
  obtain ⟨counting, hcounting⟩ := hstatable'.exists_countStatement
  have htables (tables : List Table) : ∀ t ∈ tables, s.contents.has t :=
    fun t _ => Contents.has_of_missing hwhole t
  have hlift : (Work.lift ((d.finish viewer query).selectStatement none 0)).runOn s =
      (.ok statement, s) := by
    rw [Work.runOn_lift, hstatement]
  have hlift' : (Work.lift (e.finish viewer.withoutFilters text).countStatement).runOn s =
      (.ok counting, s) := by
    rw [Work.runOn_lift, hcounting]
  rw [selectPostIds, Work.runOn_bind_of_ok hlift] at hselect
  rw [countPosts, Work.runOn_bind_of_ok hlift']
  by_cases hfits : statement.params.all Value.fits = true
  · rw [runOn_run_of_readable ⟨htables _, hfits⟩] at hselect
    obtain ⟨hfrom, hconditions⟩ := Plan.fits_of_selectStatement hstatement hfits
    have hcount := h.fits_countStatement hcounting hfrom hconditions
    rw [runOn_run_of_readable ⟨htables _, hcount⟩]
    exact ⟨(Except.ok.inj hselect).symm, rfl⟩
  · obtain ⟨e, hrefused⟩ := runOn_run_of_not_readable (fun h => hfits h.values)
      fun c => selectedIds c (d.finish viewer query) none 0
    rw [hrefused] at hselect
    cases hselect

end Counted

/-! ## Single tags -/

section Tags

variable {config : Config} {resolve : String → String} {viewer : Viewer} {now : Moment} {t : Term}
  {c : Contents}

/-- A tag that is the whole of a query can be planned, on a board that allows a tag at all. -/
theorem draftOf_tag (hconfig : 1 ≤ config.tagQueryLimit) (hkind : t.kind = .tag)
    (hpolarity : t.polarity = .required) :
    draftOf config resolve viewer now [t] =
      .ok (Draft.empty.addFilter .required ⟨resolve t.name, false⟩) := by
  refine draftOf_singleton_eq_ok.2 ⟨checkTagLimit_singleton hconfig t, ?_⟩
  simp [Draft.addTerm, hkind, hpolarity]

/-- As many posts are found for a tag alone as carry the name that it stands for. -/
theorem selectedCount_tag (name query : String) :
    selectedCount c ((Draft.empty.addFilter .required ⟨name, false⟩).finish viewer.withoutFilters query) =
      c.carrierCount name := by
  have hselects (p : Post) : selects c ((Draft.empty.addFilter .required ⟨name, false⟩).finish
      viewer.withoutFilters query) p = decide (name ∈ c.tagNames p.id) := by
    rw [Bool.eq_iff_iff, selects_iff, decide_eq_true_iff]
    simp [Draft.empty, Draft.addFilter, Draft.insertNew, Draft.finish, Draft.viewerConditions,
      Viewer.withoutFilters, carries, nameMatches, Contents.tagNames]
  have hsource : sourceRows c ((Draft.empty.addFilter .required ⟨name, false⟩).finish
      viewer.withoutFilters query) = c.posts.map (⟨·, none⟩) := rfl
  rw [selectedCount, selectedRows, hsource, List.filter_map, List.length_map,
    ← List.countP_eq_length_filter, Contents.carrierCount]
  simp only [Function.comp_def, hselects]

/-- With right post counts, the plan of a tag alone counts as many posts as the tag says. -/
theorem runOn_countPosts_tag {s : Store} {tag : Tag} {name query : String}
    (htables : ∀ t ∈ [Table.posts, .taggings, .tags], s.contents.has t) (hrules : s.contents.TagRules)
    (hcounted : s.contents.Counted) (hfound : s.contents.findTag? name = some tag) :
    (countPosts ((Draft.empty.addFilter .required ⟨name, false⟩).finish viewer.withoutFilters
      query)).runOn s = (.ok tag.postCount, s) := by
  have hcount : tag.postCount = s.contents.carrierCount name := by
    rw [← hcounted.postCountOf_eq hrules, Contents.postCountOf, hfound]
    rfl
  have hlift : ∃ f, (Work.lift ((Draft.empty.addFilter .required ⟨name, false⟩).finish
      viewer.withoutFilters query).countStatement).runOn s = (.ok f, s) ∧
      f.params.all Value.fits = true := ⟨_, rfl, rfl⟩
  have hsource : sourceTables ((Draft.empty.addFilter .required ⟨name, false⟩).finish
      viewer.withoutFilters query) = [.posts, .taggings, .tags] := rfl
  obtain ⟨f, hlift, hfits⟩ := hlift
  rw [countPosts, Work.runOn_bind_of_ok hlift, hsource, runOn_run_of_readable ⟨htables, hfits⟩,
    selectedCount_tag, hcount]

/-- The names of the metatags are steady: those of categories end in an s, and the others have no
sigma. -/
theorem isSteady_of_mem_names (categories : Categories) :
    ∀ w ∈ (Registry.ofCategories categories).names, Text.IsSteady w.toList := by
  have hfixed : ∀ w ∈ Registry.fixed.map (·.1), Text.hasSigma w.toList = false := by decide
  intro w hw
  rw [Registry.names, mem_distinct, Registry.ofCategories, List.map_append, List.mem_append] at hw
  rcases hw with hw | hw
  · exact Or.inl (hfixed w hw)
  · obtain ⟨c, rfl⟩ : ∃ c : Category, c.countMetatag = w := by
      simp only [List.map_map, List.mem_map] at hw
      obtain ⟨c, -, hc⟩ := hw
      exact ⟨c, hc⟩
    exact Or.inr ⟨c.shortName.toList ++ "tag".toList, by simp [Category.countMetatag]⟩

/-- The tag that a normal form consists of is the only term of the tokens. -/
theorem soleTag?_normalizeTokens (config : Config) {tokens : List String}
    (htokens : ∀ t ∈ tokens, IsToken t.toList) :
    ∃ found, Searcher.soleTag? config (normalizeTokens tokens) = .ok found ∧
      ∀ name ∈ found, ∃ t, t.kind = .tag ∧ t.polarity = .required ∧ t.name = name ∧
        classify (Registry.ofCategories config.categories).names tokens = [t] := by
  unfold Searcher.soleTag?
  by_cases hplain : (normalizeTokens tokens).isEmpty ∨ ' ' ∈ (normalizeTokens tokens).toList
  · exact ⟨none, if_pos hplain, by simp⟩
  rw [if_neg hplain]
  rw [not_or, String.isEmpty_iff] at hplain
  obtain ⟨token, rfl, hnormal⟩ := exists_eq_singleton_of_normalizeTokens hplain.1 hplain.2
  rw [hnormal] at hplain ⊢
  have htoken := htokens token List.mem_cons_self
  have hblank : ∀ c ∈ token.toList, Text.isBlank c = false := by
    intro c hc
    rw [← Bool.not_eq_true]
    intro hblank
    refine hplain.2 ?_
    rw [Text.lowerString, String.toList_ofList,
      (Text.lowered_lower _).mem_iff (Text.isCaseless_of_isBlank (by decide)), ← htoken.blank c hc hblank]
    exact hc
  obtain ⟨hkind, hpolarity, hname⟩ :=
    classifyToken_lowerString _ hblank fun _ => isSteady_of_mem_names config.categories
  rw [terms, tokenize_lowerString htoken hplain.2]
  refine ⟨_, rfl, fun name hfound => ?_⟩
  simp only [distinctTerms, classify, List.map_cons, List.map_nil, firstOfEach, List.contains_nil,
    Bool.false_eq_true, if_false] at hfound
  split at hfound
  next h => 
    obtain rfl := Option.some.inj hfound
    exact ⟨_, hkind ▸ h.1, hpolarity ▸ h.2, hname.symm, rfl⟩
  next => cases hfound

end Tags

end Search

end Imageboard
