import Imageboard.Proofs.Search.Faltering

/-!
# Queries of a single tag

A query that is a single tag is answered by the post count of the tag, and the tag is read off the
normal form of the query, not off the query itself. Both readings give the same tag on every board: the
normal form is one token exactly if the query is, and in lower case that token has the kind, the mark
and the name that it had. What the searcher takes the name for does not depend on the reading. So where
the post counts are right, the post count is what counting gives.
-/

namespace Imageboard.Searcher

open Query SearchWork

variable {config : Config} {s u : Searcher} {viewer : Viewer} {query normalized : String}

/-- A board whose settings are in range allows a tag. -/
theorem one_le_tagQueryLimit (h : config.validate = .ok config) : 1 ≤ config.tagQueryLimit := by
  unfold Config.validate at h
  dsimp only at h
  split at h
  · cases h
  · omega

/-- A name that is looked up in its own answer is found there. -/
theorem lookUp_singleton (name target : String) : lookUp [(name, target)] name = target := by
  simp [lookUp]

/-- A searcher who can say what a tag stands for makes the plan of a query of this one tag. -/
theorem runOn_compile_tag (hconfig : 1 ≤ config.tagQueryLimit) {t : Term}
    (hread : readTerms config query = .ok [t]) (hkind : t.kind = .tag)
    (hpolarity : t.polarity = .required) {target : String}
    (hresolve : (resolve t.name).runOn s = (.ok target, u)) :
    (compile config viewer query).runOn s =
      (.ok ((Draft.empty.addFilter .required ⟨target, false⟩).finish viewer query), u) := by
  have hterms : checkedTerms config query = .ok [t] :=
    checkedTerms_singleton hread (checkTagLimit_singleton hconfig t)
  have hlookups : aliasLookups config viewer s.store.clock [t] = [t.name] := by
    simp [aliasLookups, hkind]
  have hanswers : (resolveEach [t.name]).runOn s = (.ok [(t.name, target)], u) := by
    rw [resolveEach, runOn_bind_of_ok hresolve]
    rfl
  have hplan : planOf config (lookUp [(t.name, target)]) viewer s.store.clock query [t] =
      .ok ((Draft.empty.addFilter .required ⟨target, false⟩).finish viewer query) := by
    simp [planOf, Draft.addTerms, Draft.addTerm, hkind, hpolarity, lookUp_singleton, Except.map]
  rw [compile, runOn_bind_of_ok (runOn_get s), hterms, runOn_bind_of_ok (runOn_lift _ _), hlookups,
    runOn_bind_of_ok hanswers, hplan]
  rfl

/-- The tag of the normal form is the one term of the query itself, as the searcher takes both. -/
theorem exists_readTerms_of_simpleTagCount {n : Int} (hnormal : normalize query = .ok normalized)
    (hrun : (simpleTagCount config normalized).runOn s = (.ok (some n), u)) :
    ∃ t target v tag, readTerms config query = .ok [t] ∧ t.kind = .tag ∧ t.polarity = .required ∧
      (resolve t.name).runOn s = (.ok target, v) ∧ s.store.contents.has .tags ∧
      s.store.contents.findTag? target = some tag ∧ n = tag.postCount := by
  obtain ⟨-, -, -, htag⟩ := of_runOn_simpleTagCount hrun
  obtain ⟨name, tag, hsole, ⟨v, hresolve⟩, htags, hfound, hn⟩ := htag n rfl
  obtain ⟨tokens, htokens, rfl⟩ := exists_of_map_eq_ok hnormal
  obtain ⟨found, hsole', hterm⟩ := Search.soleTag?_normalizeTokens config (isToken_of_tokenize htokens)
  obtain rfl : some name = found := Except.ok.inj (hsole.symm.trans hsole')
  obtain ⟨t, hkind, hpolarity, rfl, hclassify⟩ := hterm name rfl
  refine ⟨t, _, v, tag, ?_, hkind, hpolarity, hresolve, htags, hfound, hn⟩
  rw [readTerms, htokens, ← hclassify]
  rfl

/-- Where the post counts are right, a number that is answered without counting is what counting gives:
on every board and for every viewer and query, the query with its filters has a plan for a viewer
without filters, and as many rows are counted for it. -/
theorem simpleTagCount_eq_countPosts {n : Int} (hconfig : config.validate = .ok config)
    (hposts : s.store.contents.has .posts) (htaggings : s.store.contents.has .taggings)
    (hrules : s.store.contents.TagRules) (hcounted : s.store.contents.Counted)
    (hnormal : (effectiveQuery config viewer query).bind normalize = .ok normalized)
    (hrun : (simpleTagCount config normalized).runOn s = (.ok (some n), u)) :
    ∃ effective plan t, effectiveQuery config viewer query = .ok effective ∧
      (compile config viewer.withoutFilters effective).runOn s = (.ok plan, t) ∧
      t.store = s.store ∧ (Search.countPosts plan).runOn s.store = (.ok n, s.store) := by
  cases heffective : effectiveQuery config viewer query with
  | error e =>
    rw [heffective] at hnormal
    cases hnormal
  | ok effective =>
  rw [heffective] at hnormal
  obtain ⟨term, target, t, tag, hread, hkind, hpolarity, hresolve, htags, hfound, rfl⟩ :=
    exists_readTerms_of_simpleTagCount hnormal hrun
  obtain ⟨-, hstore, -⟩ := of_runOn_resolve hresolve
  have htables : ∀ table ∈ [Table.posts, .taggings, .tags], s.store.contents.has table := by
    simp [hposts, htaggings, htags]
  exact ⟨effective, _, t, rfl,
    runOn_compile_tag (one_le_tagQueryLimit hconfig) hread hkind hpolarity hresolve, hstore,
    Search.runOn_countPosts_tag htables hrules hcounted hfound⟩

/-- Two posts carry what a kitty is an alias of, and the query for it is answered by their number. -/
theorem simpleTagCount_eq_countPosts_kitty :
    let s := Search.searcherOf { Search.petContents with
      aliases := [⟨1, "kitty", "cat", .active, none, none, none, .null, .null⟩] }
    ∃ effective plan t, effectiveQuery .standard .anonymous "Kitty\u3000" = .ok effective ∧
      (compile .standard Viewer.anonymous.withoutFilters effective).runOn s = (.ok plan, t) ∧
      t.store = s.store ∧ (Search.countPosts plan).runOn s.store = (.ok 2, s.store) := by
  intro s
  have hnormal : (effectiveQuery .standard .anonymous "Kitty\u3000").bind normalize = .ok "kitty" := by
    decide +kernel
  have hrun : (simpleTagCount .standard "kitty").runOn s =
      (.ok (some 2), { s with aliases := ⟨0, [("kitty", "cat")]⟩ }) := by
    decide +kernel
  exact simpleTagCount_eq_countPosts rfl rfl rfl
    ⟨⟨by decide, by decide⟩, by decide, by decide, by decide, by decide⟩ (by decide) hnormal hrun

end Imageboard.Searcher
