import Imageboard.Proofs.Query.Ordering
import Imageboard.Proofs.Search.Answering
import Imageboard.Proofs.Search.Running

/-!
# The order of words

Which posts a query selects does not depend on the order of its words and on how often they stand in
it, as long as no word orders by a pool: the plans have the same filters and conditions, up to order
and repetition. Only what the last word of a kind decides can differ, which is the order of the posts
and their number. An order by a pool is apart, since it draws from the places in the pool and not from
the posts.
-/

namespace Imageboard

namespace Query

/-- The plan without its order and its limit. -/
def Plan.plain (p : Plan) : Plan :=
  { p with order := .standard, limit := none }

/-- Two plans with the same filters and conditions, up to order and repetition. -/
structure Plan.Alike (p q : Plan) : Prop where
  required : ∀ f, f ∈ p.required ↔ f ∈ q.required
  negated : ∀ f, f ∈ p.negated ↔ f ∈ q.negated
  optional : ∀ f, f ∈ p.optional ↔ f ∈ q.optional
  conditions : ∀ k, k ∈ p.conditions ↔ k ∈ q.conditions

namespace Plan.Alike

variable {p q : Plan}

/-- Plans that are alike are so the other way round. -/
theorem symm (h : p.Alike q) : q.Alike p :=
  ⟨fun f => (h.required f).symm, fun f => (h.negated f).symm, fun f => (h.optional f).symm,
    fun k => (h.conditions k).symm⟩

/-- Lists with the same items are both empty or both not. -/
theorem eq_nil_iff {α : Type} {xs ys : List α} (h : ∀ x, x ∈ xs ↔ x ∈ ys) : xs = [] ↔ ys = [] := by
  simp only [List.eq_nil_iff_forall_not_mem, h]

/-- Of two plans that are alike one is blank if the other is. -/
theorem isBlank_eq (h : p.Alike q) : p.isBlank = q.isBlank := by
  rw [Bool.eq_iff_iff]
  simp only [isBlank, Bool.and_eq_true, List.isEmpty_iff, eq_nil_iff h.required,
    eq_nil_iff h.negated, eq_nil_iff h.optional, eq_nil_iff h.conditions]

end Plan.Alike

variable {config : Config} {resolve : String → String} {viewer : Viewer} {now : Moment}
  {ts us : List Term} {d e : Draft}

/-- The same terms in any order make plans that are alike. -/
theorem Draft.Extends.alike_finish
    (hd : Draft.Extends config resolve viewer now .empty (firstOfEach Term.key [] ts) d)
    (he : Draft.Extends config resolve viewer now .empty (firstOfEach Term.key [] us) e)
    (hsame : ∀ t, t ∈ ts ↔ t ∈ us) (query text : String) :
    (d.finish viewer query).Alike (e.finish viewer text) := by
  have hfilters (polarity : Polarity) (f : TagFilter) :
      f ∈ d.filters polarity ↔ f ∈ e.filters polarity := by
    simp only [hd.mem_filters_iff, he.mem_filters_iff, hsame]
  have hshows : d.showsDeleted = e.showsDeleted := by
    rw [hd.showsDeleted, he.showsDeleted, Draft.empty, Bool.eq_iff_iff, Bool.false_or, Bool.false_or,
      any_showsDeleted_distinct_iff, any_showsDeleted_distinct_iff]
    simp only [hsame]
  refine ⟨hfilters .required, hfilters .negated, fun f => ?_, fun k => ?_⟩
  · rw [Search.mem_optional_finish_iff hd, Search.mem_optional_finish_iff he]
    simp only [Search.IsOnlyOptional, hsame]
  · have hmetatags : k ∈ d.conditions ↔ k ∈ e.conditions := by
      rw [hd.conditions, he.conditions, Draft.empty, List.nil_append, List.nil_append,
        mem_conditions_distinct_iff, mem_conditions_distinct_iff]
      simp only [hsame]
    simp only [Draft.finish, List.mem_append, hmetatags, hshows]

end Query

namespace Search

open Query

/-- On a store, two pieces of work that leave it alone have the same result or both fail. -/
def SameOutcome {α : Type} (w v : Work α) (s : Store) : Prop :=
  (∃ a, w.runOn s = (.ok a, s) ∧ v.runOn s = (.ok a, s)) ∨
    ∃ e f, w.runOn s = (.error e, s) ∧ v.runOn s = (.error f, s)

section Alike

variable {p q : Plan} {c : Contents} {s : Store}

/-- Plans that are alike select the same posts. -/
theorem selects_eq_of_alike (h : p.Alike q) : selects c p = selects c q := by
  funext r
  rw [Bool.eq_iff_iff, selects_iff, selects_iff]
  simp only [h.required, h.negated, h.optional, h.conditions, ne_eq,
    Plan.Alike.eq_nil_iff h.optional]

/-- Plans that are alike select the same rows unless one of them draws from a pool. -/
theorem selectedRows_eq_of_alike (h : p.Alike q) (hp : p.order.key ≠ .ordpool)
    (hq : q.order.key ≠ .ordpool) : selectedRows c p = selectedRows c q := by
  rw [selectedRows, selectedRows, sourceRows, sourceRows, if_neg hp, if_neg hq,
    selects_eq_of_alike h]

/-- The rows of a plan can be counted if those of one that is alike can. -/
theorem Countable.of_alike (hcount : Countable p s) (h : p.Alike q) (hp : p.order.key ≠ .ordpool)
    (hq : q.order.key ≠ .ordpool) : Countable q s where
  tables t ht := by
    refine hcount.tables t ?_
    simp only [sourceTables, if_neg hp, if_neg hq, List.mem_append, List.mem_flatMap, h.required,
      h.negated, h.optional, h.conditions] at ht ⊢
    exact ht
  source := by
    rw [Plan.fromFragment, if_neg hq]
    rfl
  conditions k hk := hcount.conditions k ((h.conditions k).2 hk)

/-- A plain plan is selected from exactly if its rows can be counted. -/
theorem selectable_plain_iff : Selectable p.plain none 0 s ↔ Countable p.plain s :=
  ⟨fun h => h.toCountable, fun h => ⟨h, fun _ ht => absurd ht List.not_mem_nil, rfl, rfl, rfl⟩⟩

/-- Plans that are alike are counted alike unless one of them draws from a pool. -/
theorem sameOutcome_countPosts (h : p.Alike q) (hp : p.order.key ≠ .ordpool)
    (hq : q.order.key ≠ .ordpool) (hpstatable : p.Statable) (hqstatable : q.Statable) :
    SameOutcome (countPosts p) (countPosts q) s := by
  by_cases hcount : Countable p s
  · have hcount' := hcount.of_alike h hp hq
    refine Or.inl ⟨_, hcount.runOn_countPosts hpstatable, ?_⟩
    rw [hcount'.runOn_countPosts hqstatable, selectedCount, selectedCount,
      selectedRows_eq_of_alike h hp hq]
  · have hcount' : ¬ Countable q s := fun hcount' => hcount (hcount'.of_alike h.symm hq hp)
    obtain ⟨e, he⟩ := runOn_countPosts_of_not_countable hpstatable hcount
    obtain ⟨f, hf⟩ := runOn_countPosts_of_not_countable hqstatable hcount'
    exact Or.inr ⟨e, f, he, hf⟩

/-- Without orders and limits plans that are alike return the same posts. -/
theorem sameOutcome_selectPostIds_plain (h : p.Alike q) (hp : p.Statable) (hq : q.Statable) :
    SameOutcome (selectPostIds p.plain none 0) (selectPostIds q.plain none 0) s := by
  have hplain : p.plain.Alike q.plain := ⟨h.required, h.negated, h.optional, h.conditions⟩
  have hstandard (r : Plan) : r.plain.order.key ≠ .ordpool := by
    intro hkey
    cases hkey
  have hstatable {r : Plan} (hr : r.Statable) : r.plain.Statable := ⟨hr.conditions, _, rfl⟩
  by_cases hcount : Countable p.plain s
  · have hcount' := hcount.of_alike hplain (hstandard p) (hstandard q)
    refine Or.inl ⟨_, (selectable_plain_iff.2 hcount).runOn_selectPostIds (hstatable hp), ?_⟩
    have hids : selectedIds s.contents q.plain none 0 = selectedIds s.contents p.plain none 0 := by
      rw [selectedIds, selectedIds, selectedRows_eq_of_alike hplain (hstandard p) (hstandard q)]
      rfl
    rw [(selectable_plain_iff.2 hcount').runOn_selectPostIds (hstatable hq), hids]
  · have hcount' : ¬ Countable q.plain s :=
      fun hcount' => hcount (hcount'.of_alike hplain.symm (hstandard q) (hstandard p))
    obtain ⟨e, he⟩ := runOn_selectPostIds_of_not_selectable (hstatable hp)
      fun hselect => hcount (selectable_plain_iff.1 hselect)
    obtain ⟨f, hf⟩ := runOn_selectPostIds_of_not_selectable (hstatable hq)
      fun hselect => hcount' (selectable_plain_iff.1 hselect)
    exact Or.inr ⟨e, f, he, hf⟩

end Alike

section Words

variable {config : Config} {viewer : Viewer} {query text : String} {tokens others : List String}
  {plan other : Plan} {s t s' t' : Searcher}

/-- Two queries with the same words, none of which orders by a pool, are compiled into plans of which
both or neither is blank, that select the same posts from any contents, and that, their orders and
limits left aside, are answered and counted alike on any store. The words may come in any order and be
repeated; the searchers take names for the same and count ages from the same moment. -/
theorem selectsAlike_of_sameWords
    (hplan : (Searcher.compile config viewer query).runOn s = (.ok plan, t))
    (hother : (Searcher.compile config viewer text).runOn s' = (.ok other, t'))
    (hanswers : s.answer = s'.answer)
    (hmoment : referenceMoment viewer s.store.clock = referenceMoment viewer s'.store.clock)
    (htokens : tokenize query = .ok tokens) (hothers : tokenize text = .ok others)
    (hsame : ∀ token, token ∈ tokens ↔ token ∈ others)
    (hpool : ∀ token ∈ tokens,
      ¬ (classifyToken (Registry.ofCategories config.categories).names token).IsOrdpool) :
    plan.isBlank = other.isBlank ∧
      (∀ c, selectedRows c plan = selectedRows c other) ∧
      ∀ u, SameOutcome (selectPostIds plan.plain none 0) (selectPostIds other.plain none 0) u ∧
        SameOutcome (countPosts plan) (countPosts other) u := by
  obtain ⟨ts, d, hts, hd, rfl⟩ := extends_of_compile (Searcher.of_runOn_compile hplan)
  obtain ⟨us, e, hus, he, rfl⟩ := extends_of_compile (Searcher.of_runOn_compile hother)
  rw [← hanswers, ← hmoment] at he
  rw [readTerms, htokens] at hts
  rw [readTerms, hothers] at hus
  obtain rfl := Except.ok.inj hts
  obtain rfl := Except.ok.inj hus
  have hterms (names : List String) (t : Term) :
      t ∈ classify names tokens ↔ t ∈ classify names others := by
    simp only [classify, List.mem_map, hsame]
  have hd' := extends_of_draftOf hd
  have he' := extends_of_draftOf he
  have halike := hd'.alike_finish he' (hterms _) query text
  have hnopool {f : Draft} {words : List String} (hwords : ∀ token ∈ words, token ∈ tokens)
      (source : String) (hf : Draft.Extends config s.answer viewer
        (referenceMoment viewer s.store.clock) .empty (firstOfEach Term.key []
          (classify (Registry.ofCategories config.categories).names words)) f) :
      (f.finish viewer source).order.key ≠ .ordpool := by
    intro hkey
    obtain ⟨⟨t, ht, hordpool⟩, -⟩ := hf.ordpool_finish hkey
    obtain ⟨token, htoken, rfl⟩ := List.mem_map.1 ((firstOfEach_sublist [] _).mem ht)
    exact hpool token (hwords token htoken) hordpool
  have hp := hnopool (fun _ h => h) query hd'
  have hq := hnopool (fun token h => (hsame token).2 h) text he'
  have hpstatable := hd'.statable_finish query
  have hqstatable := he'.statable_finish text
  exact ⟨halike.isBlank_eq, fun c => selectedRows_eq_of_alike halike hp hq, fun u =>
    ⟨sameOutcome_selectPostIds_plain halike hpstatable hqstatable,
      sameOutcome_countPosts halike hp hq hpstatable hqstatable⟩⟩

/-- A tag, an excluded pattern and a score are put in another order and the tag is repeated. -/
theorem selectsAlike_of_sameWords_pets :
    let plan : Plan := ⟨[⟨"cat", false⟩], [⟨"do*", true⟩], [],
      [⟨.range .score (.gt (.integer 1)) none, false⟩], .standard, none, "cat score:>1 -do*"⟩
    let other : Plan := { plan with query := "-do* cat cat score:>1" }
    plan.isBlank = other.isBlank ∧
      (∀ c, selectedRows c plan = selectedRows c other) ∧
      ∀ u, SameOutcome (selectPostIds plan.plain none 0) (selectPostIds other.plain none 0) u ∧
        SameOutcome (countPosts plan) (countPosts other) u := by
  intro plan other
  have hplan : (Searcher.compile .standard .anonymous "cat score:>1 -do*").runOn
      (searcherOf petContents) =
        (.ok plan, { searcherOf petContents with aliases := ⟨0, [("cat", "cat")]⟩ }) := by
    decide +kernel
  have hother : (Searcher.compile .standard .anonymous "-do* cat cat score:>1").runOn
      (searcherOf petContents) =
        (.ok other, { searcherOf petContents with aliases := ⟨0, [("cat", "cat")]⟩ }) := by
    decide +kernel
  have htokens : tokenize "cat score:>1 -do*" = .ok ["cat", "score:>1", "-do*"] := by
    decide +kernel
  have hothers : tokenize "-do* cat cat score:>1" = .ok ["-do*", "cat", "cat", "score:>1"] := by
    decide +kernel
  refine selectsAlike_of_sameWords hplan hother rfl rfl htokens hothers (by simp; tauto) ?_
  unfold Term.IsOrdpool
  decide +kernel

end Words

end Search

end Imageboard
