import Imageboard.Proofs.Query.Binding
import Imageboard.Proofs.Search.Compiling
import Imageboard.Proofs.Tagging.Naming
import Imageboard.Proofs.Text.Wildcards

/-!
# What queries select

The meaning of a query is stated term by term, without plans and statements: which names a post
carries, what is true of it, and what the filters of the viewer leave. A plan that is compiled from
the query selects exactly the posts with that meaning, each once. Repeated terms, the order of the
terms and the way they are grouped in the plan make no difference to it.
-/

namespace Imageboard.Search

open Query Text

/-! ## The meaning of a query -/

/-- Whether a post carries a tag, under the name that this stands for, or an instance of a pattern. -/
def Carries (resolve : String → String) (c : Contents) (p : Post) (t : Term) : Prop :=
  if t.kind = .wildcard then
    ∃ name ∈ c.tagNames p.id, Instance (beforeNull t.name.toList) (beforeNull name.toList)
  else resolve t.name ∈ c.tagNames p.id

/-- Whether a term is a tag or a pattern with a polarity. -/
def IsTagWith (polarity : Polarity) (t : Term) : Prop :=
  t.isTag = true ∧ t.polarity = polarity

/-- Whether a term is an optional tag or pattern that is not also required. -/
def IsOnlyOptional (resolve : String → String) (ts : List Term) (t : Term) : Prop :=
  IsTagWith .optional t ∧ ∀ u ∈ ts, IsTagWith .required u → u.filter resolve ≠ t.filter resolve

/-- Whether a post is what the terms of a query ask for. -/
structure Satisfies (config : Config) (resolve : String → String) (viewer : Viewer) (now : Moment)
    (ts : List Term) (c : Contents) (p : Post) : Prop where
  required : ∀ t ∈ ts, IsTagWith .required t → Carries resolve c p t
  optional : (∃ t ∈ ts, IsOnlyOptional resolve ts t) →
    ∃ t ∈ ts, IsOnlyOptional resolve ts t ∧ Carries resolve c p t
  negated : ∀ t ∈ ts, IsTagWith .negated t → ¬ Carries resolve c p t
  metatags : ∀ t ∈ ts, ∀ k ∈ t.conditions config viewer now, conditionTruth c p k = some true
  safe : viewer.safeMode = true → p.rating = "s"
  shown : viewer.hideDeleted = true → (∀ t ∈ ts, t.showsDeleted = false) → p.isDeleted = 0

/-! ## Plans have the meaning of their queries -/

section Meaning

variable {config : Config} {resolve : String → String} {viewer : Viewer} {now : Moment}
  {ts : List Term} {d : Draft} {c : Contents} {p : Post}

/-- A post carries what the filter of a tag or a pattern accepts. -/
theorem carries_filter_iff {t : Term} : carries c p (t.filter resolve) = true ↔ Carries resolve c p t := by
  unfold carries Carries Term.filter
  split
  · simp [nameMatches, globMatches_escapeGlob_iff, Contents.tagNames]
  · simp [nameMatches, Contents.tagNames]

/-- What is known to be true or false holds if it is true. -/
theorem Truth.holds_some (b : Bool) : Truth.holds (some b) = b := by
  cases b <;> rfl

/-- A plan selects a post if its filters accept the tags and its conditions are true. -/
theorem selects_iff {plan : Plan} :
    selects c plan p = true ↔
      (∀ f ∈ plan.required, carries c p f = true) ∧
      (plan.optional ≠ [] → ∃ f ∈ plan.optional, carries c p f = true) ∧
      (∀ f ∈ plan.negated, carries c p f = false) ∧
      ∀ k ∈ plan.conditions, conditionTruth c p k = some true := by
  have hoptional : (if plan.optional.isEmpty then []
      else [Truth.any (plan.optional.map fun f => some (carries c p f))]).all Truth.holds = true ↔
      (plan.optional ≠ [] → ∃ f ∈ plan.optional, carries c p f = true) := by
    cases plan.optional with
    | nil => simp
    | cons f rest => simp [Truth.holds_any, Truth.holds_some, -List.map_cons]
  have hconditions (k : Condition) :
      (conditionTruth c p k).holds = true ↔ conditionTruth c p k = some true := by
    simp [Truth.holds]
  unfold selects planTruth
  rw [Truth.holds_all]
  simp only [List.all_append, Bool.and_eq_true, hoptional, and_assoc, List.all_map, List.all_eq_true,
    Function.comp_apply, Truth.holds_some, hconditions, Bool.not_eq_eq_eq_not, Bool.not_true]

/-- What the condition says that keeps to safe posts. -/
theorem conditionTruth_safe_iff :
    conditionTruth c p ⟨.range .rating (.eq (.text "s")) none, false⟩ = some true ↔ p.rating = "s" := by
  simp [conditionTruth, truthOf, inRange, columnValue, comparesAs, Value.bound, Value.compare?]

/-- What the condition says that leaves deleted posts out. -/
theorem conditionTruth_shown_iff :
    conditionTruth c p ⟨.flags [.deleted] false .all, false⟩ = some true ↔ p.isDeleted = 0 := by
  by_cases hdeleted : p.isDeleted = 0 <;>
    simp [conditionTruth, truthOf, Truth.all, Truth.and, flagIs, flagValue, hdeleted]

/-- What the conditions say that the filters of a viewer add. -/
theorem viewerConditions_iff {showsDeleted : Bool} :
    (∀ k ∈ Draft.viewerConditions viewer showsDeleted, conditionTruth c p k = some true) ↔
      (viewer.safeMode = true → p.rating = "s") ∧
      (viewer.hideDeleted = true → showsDeleted = false → p.isDeleted = 0) := by
  unfold Draft.viewerConditions
  simp only [List.mem_append, or_imp, forall_and]
  refine and_congr ?_ ?_
  · cases viewer.safeMode <;> simp [conditionTruth_safe_iff]
  · cases viewer.hideDeleted <;> cases showsDeleted <;> simp [conditionTruth_shown_iff]

/-- The optional filters of a plan are those of the terms that are only optional. -/
theorem mem_optional_finish_iff {query : String} {f : TagFilter}
    (h : Draft.Extends config resolve viewer now .empty (firstOfEach Term.key [] ts) d) :
    f ∈ (d.finish viewer query).optional ↔
      ∃ t ∈ ts, IsOnlyOptional resolve ts t ∧ t.filter resolve = f := by
  have hfinish : f ∈ (d.finish viewer query).optional ↔
      f ∈ d.filters .optional ∧ f ∉ d.filters .required := by
    simp [Draft.finish, Draft.filters]
  rw [hfinish, h.mem_filters_iff, h.mem_filters_iff]
  constructor
  · rintro ⟨⟨t, ht, htag, rfl⟩, hnot⟩
    exact ⟨t, ht, ⟨htag, fun u hu hutag heq => hnot ⟨u, hu, hutag, heq⟩⟩, rfl⟩
  · rintro ⟨t, ht, ⟨htag, honly⟩, rfl⟩
    refine ⟨⟨t, ht, htag, rfl⟩, ?_⟩
    rintro ⟨u, hu, hutag, heq⟩
    exact honly u hu hutag heq

/-- The plan that terms are compiled into selects what satisfies them. -/
theorem selects_finish_iff {query : String}
    (h : Draft.Extends config resolve viewer now .empty (firstOfEach Term.key [] ts) d) :
    selects c (d.finish viewer query) p = true ↔ Satisfies config resolve viewer now ts c p := by
  -- The parts of the plan are taken one by one; each of them is a part of the meaning.
  have hrequired : (∀ f ∈ (d.finish viewer query).required, carries c p f = true) ↔
      ∀ t ∈ ts, IsTagWith .required t → Carries resolve c p t := by
    change (∀ f ∈ d.filters .required, _) ↔ _
    simp only [h.mem_filters_iff, ← carries_filter_iff]
    constructor
    · exact fun hall t ht htag => hall _ ⟨t, ht, htag, rfl⟩
    · rintro hall _ ⟨t, ht, htag, rfl⟩
      exact hall t ht htag
  have hnegated : (∀ f ∈ (d.finish viewer query).negated, carries c p f = false) ↔
      ∀ t ∈ ts, IsTagWith .negated t → ¬ Carries resolve c p t := by
    change (∀ f ∈ d.filters .negated, _) ↔ _
    simp only [h.mem_filters_iff, ← carries_filter_iff, Bool.not_eq_true]
    constructor
    · exact fun hall t ht htag => hall _ ⟨t, ht, htag, rfl⟩
    · rintro hall _ ⟨t, ht, htag, rfl⟩
      exact hall t ht htag
  have hoptional : ((d.finish viewer query).optional ≠ [] →
      ∃ f ∈ (d.finish viewer query).optional, carries c p f = true) ↔
      ((∃ t ∈ ts, IsOnlyOptional resolve ts t) →
        ∃ t ∈ ts, IsOnlyOptional resolve ts t ∧ Carries resolve c p t) := by
    refine imp_congr ?_ ?_
    · rw [Ne, List.eq_nil_iff_forall_not_mem]
      simp [mem_optional_finish_iff h]
    · simp [mem_optional_finish_iff h, ← carries_filter_iff, and_assoc]
  have hconditions : (∀ k ∈ (d.finish viewer query).conditions, conditionTruth c p k = some true) ↔
      (∀ t ∈ ts, ∀ k ∈ t.conditions config viewer now, conditionTruth c p k = some true) ∧
      (viewer.safeMode = true → p.rating = "s") ∧
      (viewer.hideDeleted = true → (∀ t ∈ ts, t.showsDeleted = false) → p.isDeleted = 0) := by
    have hshown : d.showsDeleted = false ↔ ∀ t ∈ ts, t.showsDeleted = false := by
      have hany : (firstOfEach Term.key [] ts).any Term.showsDeleted = true ↔ _ :=
        any_showsDeleted_distinct_iff
      rw [h.showsDeleted, Draft.empty, Bool.false_or, ← Bool.not_eq_true, hany]
      simp
    have hmetatags : (∀ k ∈ d.conditions, conditionTruth c p k = some true) ↔
        ∀ t ∈ ts, ∀ k ∈ t.conditions config viewer now, conditionTruth c p k = some true := by
      simp only [h.conditions, Draft.empty, List.nil_append, mem_conditions_distinct_iff]
      constructor
      · exact fun h t ht k hk => h k ⟨t, ht, hk⟩
      · rintro h k ⟨t, ht, hk⟩
        exact h t ht k hk
    have happend : (∀ k ∈ (d.finish viewer query).conditions, conditionTruth c p k = some true) ↔
        (∀ k ∈ d.conditions, conditionTruth c p k = some true) ∧
        ∀ k ∈ Draft.viewerConditions viewer d.showsDeleted, conditionTruth c p k = some true :=
      List.forall_mem_append
    rw [happend, hmetatags, viewerConditions_iff, hshown]
  rw [selects_iff, hrequired, hoptional, hnegated, hconditions]
  constructor
  · rintro ⟨hrequired, hoptional, hnegated, hmetatags, hsafe, hshown⟩
    exact ⟨hrequired, hoptional, hnegated, hmetatags, hsafe, hshown⟩
  · exact fun h => ⟨h.required, h.optional, h.negated, h.metatags, h.safe, h.shown⟩

end Meaning

/-! ## Running plans -/

section Running

variable {α : Type} {c : Contents} {plan : Plan} {s : Store}

/-- A query on tables that are there, with values that can be bound, is answered. -/
theorem runOn_run_of_readable {tables : List Table} {params : List Value}
    (h : Work.Readable tables params s) (f : Contents → α) :
    (run tables params f).runOn s = (.ok (f s.contents), s) := by
  rw [run, Work.runOn_adapt, Work.runOn_read_of_readable h]
  rfl

/-- Any other query is refused. -/
theorem runOn_run_of_not_readable {tables : List Table} {params : List Value}
    (h : ¬ Work.Readable tables params s) (f : Contents → α) :
    ∃ e, (run tables params f).runOn s = (.error e, s) := by
  obtain ⟨e, he⟩ := Work.runOn_read_of_not_readable h f
  rw [run, Work.runOn_adapt, he]
  exact ⟨_, rfl⟩

/-- Putting rows in order keeps them. -/
theorem sortRows_perm (o : Order) (rows : List Row) : (sortRows c o rows).Perm rows := by
  have hsorted := (List.mergeSort_perm (rows.map fun r => (sortKeys c o r, r))
    fun a b => orderKeys a.1 b.1 != .gt).map Prod.snd
  rwa [List.map_map, show (Prod.snd ∘ fun r => (sortKeys c o r, r)) = id from rfl, List.map_id]
    at hsorted

/-- Without a limit the ids of all selected rows are returned, in order. -/
theorem selectedIds_eq_map_sortRows (hlimit : plan.limit = none) :
    selectedIds c plan none 0 = (sortRows c plan.order (selectedRows c plan)).map (·.post.id) := by
  simp [selectedIds, Plan.effectiveLimit, hlimit, page]

/-- Without a limit all selected rows are returned. -/
theorem selectedIds_perm (hlimit : plan.limit = none) :
    (selectedIds c plan none 0).Perm ((selectedRows c plan).map (·.post.id)) := by
  rw [selectedIds_eq_map_sortRows hlimit]
  exact (sortRows_perm plan.order _).map _

/-- Without a limit as many ids are returned as rows are selected. -/
theorem length_selectedIds (hlimit : plan.limit = none) :
    ((selectedIds c plan none 0).length : Int) = selectedCount c plan := by
  rw [(selectedIds_perm hlimit).length_eq, List.length_map, selectedCount]

/-- With a limit as many ids are returned as rows are selected, up to the limit. -/
theorem length_selectedIds_of_limit {k : Int} (hlimit : plan.limit = some k) (hk : 0 ≤ k) :
    ((selectedIds c plan none 0).length : Int) = min (selectedCount c plan) k := by
  have hlength := (sortRows_perm (c := c) plan.order (selectedRows c plan)).length_eq
  have heffective : plan.effectiveLimit none = k := by
    rw [Plan.effectiveLimit, hlimit]
    rfl
  rw [selectedIds, heffective, page, if_neg (by omega), List.length_map, List.length_take,
    List.length_drop, hlength, selectedCount]
  omega

/-- Where a pool does not give the order, the rows are the posts. -/
theorem map_id_selectedRows (horder : plan.order.key ≠ .ordpool) :
    (selectedRows c plan).map (·.post.id) = (c.posts.filter (selects c plan)).map (·.id) := by
  rw [selectedRows, sourceRows, if_neg horder, List.filter_map, List.map_map]
  rfl

/-- Without a limit, and where a pool does not give the order, the ids are those of the posts that are
selected. -/
theorem mem_selectedIds_iff_exists (horder : plan.order.key ≠ .ordpool) (hlimit : plan.limit = none)
    {id : Int} :
    id ∈ selectedIds c plan none 0 ↔ ∃ p ∈ c.posts, p.id = id ∧ selects c plan p = true := by
  simp only [(selectedIds_perm hlimit).mem_iff, map_id_selectedRows horder, List.mem_map,
    List.mem_filter, and_assoc]
  exact exists_congr fun p => and_congr_right fun _ => and_comm

/-- Posts with distinct ids are selected once each. -/
theorem nodup_selectedIds (horder : plan.order.key ≠ .ordpool) (hlimit : plan.limit = none)
    (hids : (c.posts.map (·.id)).Nodup) : (selectedIds c plan none 0).Nodup := by
  rw [(selectedIds_perm hlimit).nodup_iff, map_id_selectedRows horder]
  exact hids.sublist (List.filter_sublist.map _)

end Running

/-! ## What searchers find -/

section Finding

variable {config : Config} {viewer : Viewer} {query : String} {plan : Plan} {s t : Searcher}

/-- A plan that a searcher makes can be written, has the terms of its query, and selects what
satisfies them, with tags under the names that they stand for in the store of the searcher. -/
theorem selects_iff_of_compile (hmemory : s.Faithful)
    (hcompile : (Searcher.compile config viewer query).runOn s = (.ok plan, t)) :
    plan.Statable ∧ ∃ ts, readTerms config query = .ok ts ∧ ∀ c p, selects c plan p = true ↔
      Satisfies config s.store.contents.standsFor viewer
        (referenceMoment viewer s.store.clock) ts c p := by
  obtain ⟨ts, d, hread, hdraft, rfl⟩ := extends_of_compile (hmemory.of_runOn_compile hcompile).1
  have hextends := extends_of_draftOf hdraft
  exact ⟨hextends.statable_finish query, ts, hread, fun _ _ => selects_finish_iff hextends⟩

/-- Carried out without a limit on posts with distinct ids, a plan that a searcher makes returns each
post at most once and exactly the posts that satisfy the terms of its query, unless a table that it
reads is gone or a value cannot be bound. -/
theorem runOn_selectPostIds_of_compile (hmemory : s.Faithful)
    (hcompile : (Searcher.compile config viewer query).runOn s = (.ok plan, t))
    (horder : plan.order.key ≠ .ordpool) (hlimit : plan.limit = none) :
    ∃ ts statement, readTerms config query = .ok ts ∧
      plan.selectStatement none 0 = .ok statement ∧
      ∀ u : Store, (u.contents.posts.map (·.id)).Nodup →
        (Work.Readable (sourceTables plan ++ orderTables plan.order) statement.params u →
          ∃ ids, (selectPostIds plan none 0).runOn u = (.ok ids, u) ∧ ids.Nodup ∧
            ∀ id, id ∈ ids ↔ ∃ p ∈ u.contents.posts, p.id = id ∧
              Satisfies config s.store.contents.standsFor viewer
                (referenceMoment viewer s.store.clock) ts u.contents p) ∧
        (¬ Work.Readable (sourceTables plan ++ orderTables plan.order) statement.params u →
          ∃ e, (selectPostIds plan none 0).runOn u = (.error e, u)) := by
  obtain ⟨hstatable, ts, hread, hselects⟩ := selects_iff_of_compile hmemory hcompile
  obtain ⟨statement, hstatement⟩ := hstatable.exists_selectStatement none 0
  refine ⟨ts, statement, hread, hstatement, fun u hids => ?_⟩
  have hlift : (Work.lift (plan.selectStatement none 0)).runOn u = (.ok statement, u) := by
    rw [Work.runOn_lift, hstatement]
  rw [selectPostIds, Work.runOn_bind_of_ok hlift]
  constructor
  · intro hreadable
    have hperm := selectedIds_perm hlimit (c := u.contents)
    rw [map_id_selectedRows horder] at hperm
    refine ⟨_, runOn_run_of_readable hreadable _, ?_, fun id => ?_⟩
    · exact hperm.nodup_iff.2 (hids.sublist (List.filter_sublist.map _))
    · simp only [hperm.mem_iff, List.mem_map, List.mem_filter, hselects, and_assoc]
      exact exists_congr fun p => and_congr_right fun _ => and_comm
  · intro hunreadable
    exact runOn_run_of_not_readable hunreadable _

end Finding

/-- Contents in which one post shows a cat and another one a cat and a dog. -/
def petContents : Contents :=
  { Contents.empty with
    tags := [⟨1, "cat", 0, 2, .null, .null⟩, ⟨2, "dog", 0, 1, .null, .null⟩]
    posts := [PostDraft.toPost {} 1 .null, PostDraft.toPost {} 2 .null]
    taggings := [⟨1, 1⟩, ⟨2, 1⟩, ⟨2, 2⟩] }

/-- A searcher who remembers nothing, on contents. -/
def searcherOf (c : Contents) : Searcher :=
  let s : Store := .ofContents c ⟨0, 0⟩ .standard
  ⟨s, .fresh s, ⟨.memory [], 0⟩⟩

/-- Cats without dogs are searched for. -/
theorem runOn_selectPostIds_of_compile_cats :
    let plan : Plan := ⟨[⟨"ca*", true⟩], [⟨"dog", false⟩], [], [], .standard, none, "ca* -dog"⟩
    ∃ ts statement, readTerms .standard "ca* -dog" = .ok ts ∧
      plan.selectStatement none 0 = .ok statement ∧
      ∀ u : Store, (u.contents.posts.map (·.id)).Nodup →
        (Work.Readable (sourceTables plan ++ orderTables plan.order) statement.params u →
          ∃ ids, (selectPostIds plan none 0).runOn u = (.ok ids, u) ∧ ids.Nodup ∧
            ∀ id, id ∈ ids ↔ ∃ p ∈ u.contents.posts, p.id = id ∧
              Satisfies .standard petContents.standsFor .anonymous ⟨0, 0⟩ ts u.contents p) ∧
        (¬ Work.Readable (sourceTables plan ++ orderTables plan.order) statement.params u →
          ∃ e, (selectPostIds plan none 0).runOn u = (.error e, u)) := by
  have hcompile : (Searcher.compile .standard .anonymous "ca* -dog").runOn (searcherOf petContents) =
      (.ok ⟨[⟨"ca*", true⟩], [⟨"dog", false⟩], [], [], .standard, none, "ca* -dog"⟩,
        { searcherOf petContents with aliases := ⟨0, [("dog", "dog")]⟩ }) := by
    decide +kernel
  exact runOn_selectPostIds_of_compile (Searcher.faithful_fresh _ _) hcompile (by decide) rfl

/-- A null character in a pattern ends it, so that the second post is found although no name on it
is an instance of the pattern as a whole. -/
theorem selectPostIds_beyond_null :
    let plan : Plan := ⟨[⟨"dog\x00*", true⟩], [], [], [], .standard, none, "dog\x00*"⟩
    let s := searcherOf petContents
    (Searcher.compile .standard .anonymous "dog\x00*").runOn s = (.ok plan, s) ∧
      (selectPostIds plan none 0).runOn s.store = (.ok [2], s.store) ∧
      petContents.tagNames 2 = {"cat", "dog"} ∧
      ∀ name ∈ petContents.tagNames 2, ¬ Instance "dog\x00*".toList name.toList := by
  intro plan s
  have hrows : selectedRows petContents plan = [⟨PostDraft.toPost {} 2 .null, none⟩] := by
    decide +kernel
  have hids : selectedIds petContents plan none 0 = [2] := by
    have hperm : (selectedIds petContents plan none 0).Perm
        ((selectedRows petContents plan).map (·.post.id)) := selectedIds_perm rfl
    rw [hrows] at hperm
    exact List.perm_singleton.1 hperm
  have hreadable : Work.Readable (sourceTables plan ++ orderTables plan.order)
      [.text "dog\x00*", .integer (-1), .integer 0] s.store := ⟨by decide, by decide⟩
  have hnames : petContents.tagNames 2 = {"cat", "dog"} := by decide
  refine ⟨by decide +kernel, ?_, hnames, ?_⟩
  · have hrun := runOn_run_of_readable hreadable fun c => selectedIds c plan none 0
    rw [show s.store.contents = petContents from rfl, hids] at hrun
    exact hrun
  · intro name hname h
    have hnull : '\x00' ∈ name.toList := h.mem (by decide) (by decide) (by decide)
    have hnonull : ∀ name ∈ petContents.tagNames 2, '\x00' ∉ name.toList := by
      rw [hnames]
      decide
    exact hnonull name hname hnull

end Imageboard.Search
