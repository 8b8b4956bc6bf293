import Imageboard.Proofs.Search.Counting
import Imageboard.Search.CountCache

/-!
# Counting as a searcher does

A searcher answers a query by the post count of a tag, if the query consists of one, by a count that is
remembered, or else by counting. With right post counts and nothing remembered all of these say what
counting says. A query that cannot be planned is not counted either, and otherwise the count is the
number of posts that a search finds and of those that the filter of the count overlooks.
-/

namespace Imageboard

/-- A failure, said of another query. -/
def Failure.ofQuery (other : String) : Failure → Failure
  | .unterminatedQuote _ position => .unterminatedQuote other position
  | f => f

/-- A failure is said of some query. -/
theorem Failure.exists_ofQuery_eq (e : Failure) : ∃ other, e.ofQuery other = e := by
  cases e with
  | unterminatedQuote query position => exact ⟨query, rfl⟩
  | _ => exact ⟨"", rfl⟩

namespace SearchWork

/-- An attempt succeeds with the result of the work, if there is one. -/
theorem runOn_attempt {α : Type} (w : SearchWork α) (s : Searcher) :
    w.attempt.runOn s = (.ok (w.runOn s).1.toOption, (w.runOn s).2) := by
  unfold runOn attempt
  rw [ExceptT.run_mk, StateT.run]
  rcases w.run.run s with ⟨_ | _, t⟩ <;> rfl

end SearchWork

namespace Searcher

open Query SearchWork

/-- Whether no count is remembered, in the store or outside. -/
def HasEmptyCache (s : Searcher) : Prop :=
  match s.counts.backend with
  | .memory entries => entries = []
  | .table => s.store.contents.cachedCounts = []
  | .broken => True

/-- A searcher with a store as the rules want it, in which no table is missing and all post counts are
right, who remembers right names and no counts. -/
structure Ready (s : Searcher) : Prop where
  whole : s.store.contents.missing = []
  rules : s.store.contents.TagRules
  counted : s.store.contents.Counted
  memory : s.Faithful
  counts : s.HasEmptyCache

variable {s t : Searcher} {viewer : Viewer} {query effective : String} {tokens : List String}

/-- All tables are there. -/
theorem Ready.has (h : s.Ready) (t : Table) : s.store.contents.has t :=
  Contents.has_of_missing h.whole t

/-- Where no count is remembered, none is found. -/
theorem HasEmptyCache.runOn_cacheGet (h : s.HasEmptyCache) (key : String) :
    ∃ r, (cacheGet key).runOn s = (r, s) ∧ r.toOption.join = none := by
  rw [cacheGet, runOn_bind_of_ok (runOn_get s)]
  unfold HasEmptyCache at h
  cases hbackend : s.counts.backend with
  | broken => exact ⟨_, rfl, rfl⟩
  | memory entries =>
    rw [hbackend] at h
    subst h
    exact ⟨_, rfl, rfl⟩
  | table =>
    rw [hbackend] at h
    dsimp only at h ⊢
    by_cases hreadable : Work.Readable [.countCache] [] s.store
    · have hnone : s.store.contents.findCount? key = none := by
        simp [Contents.findCount?, h]
      rw [runOn_bind_of_ok (runOn_ofWork_read_of_readable hreadable _), hnone]
      exact ⟨_, rfl, rfl⟩
    · obtain ⟨e, hread⟩ := runOn_ofWork_read_of_not_readable hreadable fun c => c.findCount? key
      rw [runOn_bind, hread]
      exact ⟨_, rfl, rfl⟩

/-- Finding out what a name stands for leaves the remembered counts as they are. -/
theorem counts_runOn_resolve (htable : s.store.contents.has .aliases) (name : String) :
    ((resolve name).runOn s).2.counts = s.counts := by
  rw [runOn_resolve htable]
  split <;> rfl

/-- The post count of the tag that a query in normal form consists of is that of the name that the
tag stands for. -/
theorem Ready.runOn_simpleTagCount (h : s.Ready) {normalized : String} {found : Option String}
    (hsole : soleTag? .standard normalized = .ok found) :
    ∃ t, (simpleTagCount .standard normalized).runOn s =
        (.ok (found.bind fun name =>
          (s.store.contents.findTag? (s.store.contents.standsFor name)).map (·.postCount)), t) ∧
      t.store = s.store ∧ t.counts = s.counts ∧ t.Faithful := by
  have hlift : (lift (soleTag? .standard normalized)).runOn s = (.ok found, s) := by
    rw [runOn_lift, hsole]
  rw [simpleTagCount, runOn_bind_of_ok hlift]
  cases found with
  | none => exact ⟨s, rfl, rfl, rfl, h.memory⟩
  | some name =>
    obtain ⟨t, hresolve, hstore, hfaithful⟩ := h.memory.runOn_resolve (h.has .aliases) name
    have hcounts : t.counts = s.counts := by
      simpa only [hresolve] using counts_runOn_resolve (h.has .aliases) name
    have hreadable : Work.Readable [.tags] [] s.store := ⟨fun t _ => h.has t, rfl⟩
    have htag : (ofWork (Store.getTag (s.store.contents.standsFor name))).runOn t =
        (.ok (s.store.contents.findTag? (s.store.contents.standsFor name)), t) := by
      rw [runOn_ofWork, hstore, Store.getTag, Work.runOn_read_of_readable hreadable, ← hstore]
    dsimp only
    rw [runOn_bind_of_ok hresolve, runOn_bind_of_ok htag]
    exact ⟨t, rfl, hstore, hcounts, hfaithful⟩

/-- On a board without a fixed answer, a count that fails has failed. -/
theorem runOn_countOrFallBack (plan : Plan) : ∃ t, (countOrFallBack .standard plan).runOn s =
    (((Search.countPosts plan).runOn s.store).1.map fun n => (n, true), t) := by
  have hrun : (ofWork (Search.countPosts plan)).run.run s = _ := runOn_ofWork _ _
  unfold countOrFallBack SearchWork.runOn
  rw [ExceptT.run_mk, StateT.run, hrun]
  rcases (Search.countPosts plan).runOn s.store with ⟨e | n, store⟩
  · cases e <;> exact ⟨_, rfl⟩
  · exact ⟨_, rfl⟩

/-- With nothing remembered, a query is answered by the post count of the tag that it consists of, or
else by counting for a viewer without filters. -/
theorem Ready.runOn_fastCount (h : s.Ready)
    (heffective : effectiveQuery .standard viewer query = .ok effective)
    (htokens : tokenize effective = .ok tokens) {found : Option String}
    (hsole : soleTag? .standard (normalizeTokens tokens) = .ok found) :
    ((fastCount .standard viewer query).runOn s).1 =
      match found.bind fun name =>
        (s.store.contents.findTag? (s.store.contents.standsFor name)).map (·.postCount) with
      | some n => .ok n
      | none =>
        (Query.compile .standard s.store.contents.standsFor viewer.withoutFilters s.store.clock
          effective).bind fun plan => ((Search.countPosts plan).runOn s.store).1 := by
  have hlift : (lift (effectiveQuery .standard viewer query)).runOn s = (.ok effective, s) := by
    rw [runOn_lift, heffective]
  have hnormal : (lift (Query.normalize effective)).runOn s = (.ok (normalizeTokens tokens), s) := by
    rw [runOn_lift, Query.normalize, htokens]
    rfl
  obtain ⟨t, hsimple, hstore, hcounts, hfaithful⟩ := h.runOn_simpleTagCount hsole
  rw [fastCount, runOn_bind_of_ok hlift, runOn_bind_of_ok hnormal]
  have hblank : Config.standard.blankSearchFastCount = none := rfl
  rw [hblank]
  -- The blank query has no fixed answer on a board with the standard settings.
  split
  · contradiction
  rw [runOn_bind_of_ok hsimple]
  cases found.bind fun name =>
      (s.store.contents.findTag? (s.store.contents.standsFor name)).map (·.postCount) with
  | some n => rfl
  | none =>
    have hempty' : t.HasEmptyCache := by
      unfold HasEmptyCache
      rw [hcounts, hstore]
      exact h.counts
    obtain ⟨r, hget, hnone⟩ := hempty'.runOn_cacheGet (keyMark ++ normalizeTokens tokens)
    have hattempt := runOn_attempt (cacheGet (keyMark ++ normalizeTokens tokens)) t
    rw [hget] at hattempt
    dsimp only
    rw [runOn_bind_of_ok hattempt, hnone]
    obtain ⟨u, hcompile, hstore', -⟩ := hfaithful.runOn_compile
      (hstore ▸ h.has .aliases) .standard viewer.withoutFilters effective
    rw [hstore] at hcompile hstore'
    dsimp only
    rw [runOn_bind, hcompile]
    cases Query.compile .standard s.store.contents.standsFor viewer.withoutFilters s.store.clock
        effective with
    | error e => rfl
    | ok plan =>
      obtain ⟨v, hcount⟩ := runOn_countOrFallBack (s := u) plan
      rw [hstore'] at hcount
      dsimp only
      rw [runOn_bind, hcount, Except.bind]
      rcases ((Search.countPosts plan).runOn s.store).1 with e | n
      · rfl
      -- Whether the count can be remembered or not, it is returned.
      · dsimp only [Except.map]
        rw [if_pos rfl, runOn_bind_of_ok (runOn_attempt _ _)]
        rfl

/-- The tokens of a query with its filters, and the tag that their normal form consists of. -/
theorem exists_soleTag?_of_readTerms {config : Config} {ts : List Term}
    (h : readTerms config effective = .ok ts) :
    ∃ tokens found, tokenize effective = .ok tokens ∧
      soleTag? config (normalizeTokens tokens) = .ok found ∧
      ∀ name ∈ found, ∃ t, t.kind = .tag ∧ t.polarity = .required ∧ t.name = name ∧ ts = [t] := by
  obtain ⟨tokens, htokens, hclassify⟩ := exists_of_map_eq_ok h
  obtain ⟨found, hsole, htag⟩ := Search.soleTag?_normalizeTokens config (isToken_of_tokenize htokens)
  exact ⟨tokens, found, htokens, hsole, hclassify ▸ htag⟩

/-- With right post counts and nothing remembered, a query that can be read is answered by counting
for a viewer without filters, whether it consists of a tag or not. -/
theorem Ready.runOn_fastCount_of_readTerms (h : s.Ready)
    (heffective : effectiveQuery .standard viewer query = .ok effective) {ts : List Term}
    (hread : readTerms .standard effective = .ok ts) :
    ((fastCount .standard viewer query).runOn s).1 =
      (Query.compile .standard s.store.contents.standsFor viewer.withoutFilters s.store.clock
        effective).bind fun plan => ((Search.countPosts plan).runOn s.store).1 := by
  obtain ⟨tokens, found, htokens, hsole, htag⟩ := exists_soleTag?_of_readTerms hread
  rw [h.runOn_fastCount heffective htokens hsole]
  cases found with
  | none => rfl
  | some name =>
    -- A query that consists of a tag has a plan, and the tag may be there or not.
    obtain ⟨t, hkind, hpolarity, rfl, rfl⟩ := htag name rfl
    rw [compile_of_readTerms hread, Search.draftOf_tag (by decide) hkind hpolarity]
    cases hfound : s.store.contents.findTag? (s.store.contents.standsFor t.name) with
    | none => simp [hfound, Except.map]
    | some tag =>
      simp only [Option.bind_some, hfound, Option.map_some, Except.map]
      rw [Except.bind, Search.runOn_countPosts_tag (fun t _ => h.has t) h.rules h.counted hfound]

/-- Where a query has no plan, it is not counted, for the same reason. -/
theorem Ready.runOn_fastCount_of_compile_error (h : s.Ready) {e : Failure}
    (hcompile : Query.compile .standard s.store.contents.standsFor viewer s.store.clock query =
      .error e) :
    ∃ other, ((fastCount .standard viewer query).runOn s).1 = .error (e.ofQuery other) := by
  cases hread : readTerms .standard query with
  | error e' =>
    rw [compile_of_readTerms_error hread] at hcompile
    obtain rfl := Except.error.inj hcompile
    obtain ⟨position, rfl, other, heffective | ⟨heffective, htokens⟩⟩ :=
      Search.effectiveQuery_of_error viewer hread
    · refine ⟨other, ?_⟩
      rw [fastCount, runOn_bind, heffective]
      rfl
    · have hlift : (lift (effectiveQuery .standard viewer query)).runOn s = (.ok other, s) := by
        rw [runOn_lift, heffective]
      refine ⟨other, ?_⟩
      rw [fastCount, runOn_bind_of_ok hlift, Query.normalize, htokens]
      rfl
  | ok ts =>
    obtain ⟨effective, heffective, hread'⟩ := Search.exists_effectiveQuery viewer hread
    rw [compile_of_readTerms hread] at hcompile
    rw [h.runOn_fastCount_of_readTerms heffective hread',
      compile_of_readTerms hread']
    cases hdraft : draftOf .standard s.store.contents.standsFor viewer
        (referenceMoment viewer s.store.clock) ts with
    | ok d => simp [hdraft, Except.map] at hcompile
    | error e' =>
      rw [hdraft] at hcompile
      obtain rfl := Except.error.inj hcompile
      have herror : draftOf .standard s.store.contents.standsFor viewer.withoutFilters
          (referenceMoment viewer.withoutFilters s.store.clock) (ts ++ Search.filterTerms viewer ts) =
          .error e' := (Search.draftOf_append_filterTerms _ _ _ _).1 e' hdraft
      rw [herror]
      obtain ⟨other, hother⟩ := e'.exists_ofQuery_eq
      exact ⟨other, by rw [hother]; rfl⟩

/-- On a board with the standard settings, with right post counts and nothing remembered, a query
without a plan is not counted, for the same reason. A query whose posts can all be selected is counted
as these posts and those that the count overlooks: where deleted posts are hidden and the query asks
for none, posts that are marked as deleted, though the query mentions the status or the mark is not
one. -/
theorem runOn_fastCount_of_compile (h : s.Ready) :
    (∀ e, ((compile .standard viewer query).runOn s).1 = .error e →
      ∃ other, ((fastCount .standard viewer query).runOn s).1 = .error (e.ofQuery other)) ∧
    ∀ plan ids, ((compile .standard viewer query).runOn s).1 = .ok plan → plan.limit = none →
      ((Search.selectPostIds plan none 0).runOn s.store).1 = .ok ids →
      ∃ ts shown, readTerms .standard query = .ok ts ∧
        ((compile .standard viewer.showingDeleted query).runOn s).1 = .ok shown ∧
        ((fastCount .standard viewer query).runOn s).1 =
          .ok (ids.length + (Search.selectedRows s.store.contents shown).countP
            fun r => Search.overlooks viewer ts r.post) := by
  have hplanned (v : Viewer) : ((compile .standard v query).runOn s).1 =
      Query.compile .standard s.store.contents.standsFor v s.store.clock query := by
    obtain ⟨t, hrun, -⟩ := h.memory.runOn_compile (h.has .aliases) .standard v query
    rw [hrun]
  simp only [hplanned]
  constructor
  · exact fun e => h.runOn_fastCount_of_compile_error
  intro plan ids hcompile hlimit hselect
  obtain ⟨ts, d, hread, hd, rfl⟩ := extends_of_compile hcompile
  obtain ⟨effective, heffective, hread'⟩ := Search.exists_effectiveQuery viewer hread
  obtain ⟨e, he, hfiltered⟩ := (Search.draftOf_append_filterTerms _ _ _ _).2 d hd
  have hshown : draftOf .standard s.store.contents.standsFor viewer.showingDeleted
      (referenceMoment viewer.showingDeleted s.store.clock) ts = .ok d := by
    rw [← hd]
    exact draftOf_congr ⟨rfl, rfl⟩
  refine ⟨ts, d.finish viewer.showingDeleted query, hread, ?_, ?_⟩
  · rw [compile_of_readTerms hread, hshown]
    rfl
  obtain ⟨rfl, hcount⟩ :=
    Search.runOn_countPosts_of_selectPostIds effective hd he hfiltered h.whole hselect
  have hcompile' : Query.compile .standard s.store.contents.standsFor viewer.withoutFilters
      s.store.clock effective = .ok (e.finish viewer.withoutFilters effective) := by
    rw [compile_of_readTerms hread']
    exact congrArg _ he
  rw [h.runOn_fastCount_of_readTerms heffective hread', hcompile', Except.bind,
    hcount, Search.selectedCount_finish hd he hfiltered query effective,
    Search.length_selectedIds hlimit]

/-- Contents with one post, which is pending and deleted. -/
def pendingContents : Contents :=
  { Contents.empty with
    tags := [⟨1, "a", 0, 1, .null, .null⟩]
    posts := [{ PostDraft.toPost {} 1 .null with isPending := 1, isDeleted := 1 }]
    taggings := [⟨1, 1⟩] }

/-- A visitor to whom deleted posts are not shown. -/
def hidingVisitor : Viewer :=
  { Viewer.anonymous with hideDeleted := true }

/-- A searcher on the pending post who remembers nothing is ready to count. -/
theorem ready_pending : (Search.searcherOf pendingContents).Ready where
  whole := rfl
  rules := ⟨⟨by decide, by decide⟩, by decide, by decide, by decide, by decide⟩
  counted := by decide
  memory := faithful_fresh _ _
  counts := rfl

/-- The post that is overlooked is counted besides those that are found, of which there are none. -/
theorem runOn_fastCount_of_compile_pending :
    ∃ ts shown, readTerms .standard "status:pending" = .ok ts ∧
      ((compile .standard hidingVisitor.showingDeleted "status:pending").runOn
        (Search.searcherOf pendingContents)).1 = .ok shown ∧
      ((fastCount .standard hidingVisitor "status:pending").runOn
        (Search.searcherOf pendingContents)).1 =
        .ok (([] : List Int).length + (Search.selectedRows pendingContents shown).countP
          fun r => Search.overlooks hidingVisitor ts r.post) := by
  have hcompile : ((compile .standard hidingVisitor "status:pending").runOn
      (Search.searcherOf pendingContents)).1 = .ok ⟨[], [], [],
        [⟨.flags [.pending] true .all, false⟩, ⟨.flags [.deleted] false .all, false⟩], .standard,
        none, "status:pending"⟩ := by
    decide +kernel
  exact (runOn_fastCount_of_compile ready_pending).2 _ [] hcompile rfl (by decide +kernel)

/-- A search for pending posts hides a pending post that is deleted, and the count does not. -/
theorem fastCount_pending_deleted :
    let s := Search.searcherOf pendingContents
    s.Ready ∧
      ∃ plan, ((compile .standard hidingVisitor "status:pending").runOn s).1 = .ok plan ∧
        plan.limit = none ∧ ((Search.selectPostIds plan none 0).runOn s.store).1 = .ok [] ∧
        ((fastCount .standard hidingVisitor "status:pending").runOn s).1 = .ok 1 := by
  refine ⟨ready_pending, ⟨[], [], [],
    [⟨.flags [.pending] true .all, false⟩, ⟨.flags [.deleted] false .all, false⟩], .standard, none,
    "status:pending"⟩, ?_⟩
  decide +kernel

end Searcher

end Imageboard
