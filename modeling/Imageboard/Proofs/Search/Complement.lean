import Imageboard.Proofs.Query.Negating
import Imageboard.Proofs.Search.Answering
import Imageboard.Proofs.Search.Deciding
import Imageboard.Proofs.Search.Running

/-!
# Terms and their exclusions

A query of one term and the query that excludes it split the posts that the filters of the viewer
leave: no post is found by both, and each post that lacks nothing of what the term compares is found by
one of them. Posts that the filters leave out are found by neither.
-/

namespace Imageboard

open Query

/-- A searcher answers the names of two queries alike if these ask for the same, and is left the same. -/
theorem Searcher.runOn_compile_of_same {config : Config} {viewer : Viewer} {query text : String}
    {s u : Searcher} {plan : Plan} {ts us : List Term}
    (hts : checkedTerms config query = .ok ts) (hus : checkedTerms config text = .ok us)
    (hnames : aliasLookups config viewer s.store.clock ts = aliasLookups config viewer s.store.clock us)
    (hrun : (compile config viewer query).runOn s = (.ok plan, u)) :
    (compile config viewer text).runOn s =
      (planOf config s.answer viewer s.store.clock text us, u) := by
  rw [compile, SearchWork.runOn_bind_of_ok (SearchWork.runOn_get s), hts] at hrun
  obtain ⟨ts', v, hlift, hrun⟩ := SearchWork.runOn_bind_eq_ok.1 hrun
  obtain ⟨hterms, rfl⟩ := Prod.mk.inj hlift
  obtain rfl := Except.ok.inj hterms
  obtain ⟨answers, v, hanswers, hrun⟩ := SearchWork.runOn_bind_eq_ok.1 hrun
  obtain ⟨rfl, -, -⟩ := of_runOn_resolveEach hanswers
  obtain ⟨-, rfl⟩ := Prod.mk.inj hrun
  rw [hnames] at hanswers
  rw [compile, SearchWork.runOn_bind_of_ok (SearchWork.runOn_get s), hus,
    SearchWork.runOn_bind_of_ok (SearchWork.runOn_lift _ _), SearchWork.runOn_bind_of_ok hanswers,
    planOf_congr fun _ hname => lookUp_map s.answer hname]
  rfl

namespace Search

variable {ks own : List Condition} {query text : String} {plan other : Plan} {c : Contents} {p : Post}
  {s : Store}

/-! ## Plans that are opposed -/

/-- A condition and its negation bind the same values. -/
theorem values_negated (predicate : Predicate) :
    Condition.values ⟨predicate, true⟩ = Condition.values ⟨predicate, false⟩ := by
  unfold Condition.values Condition.fragment
  cases predicate.fragment <;> rfl

/-- The rows of two opposed plans are posts. -/
theorem key_ne_ordpool_of_opposed (h : Plan.Opposed ks query text own plan other) :
    plan.order.key ≠ .ordpool ∧ other.order.key ≠ .ordpool := by
  cases h <;> exact ⟨nofun, nofun⟩

/-- Opposed plans have no limits. -/
theorem limit_of_opposed (h : Plan.Opposed ks query text own plan other) :
    plan.limit = none ∧ other.limit = none := by
  cases h <;> exact ⟨rfl, rfl⟩

/-- Of two opposed plans, the one can be carried out if the other can. -/
theorem selectable_iff_of_opposed (h : Plan.Opposed ks query text own plan other) :
    Selectable plan none 0 s ↔ Selectable other none 0 s := by
  have htables : sourceTables plan = sourceTables other := by
    cases h <;> rfl
  have hconditions : (∀ k ∈ plan.conditions, k.values.all Value.fits = true) ↔
      ∀ k ∈ other.conditions, k.values.all Value.fits = true := by
    cases h <;> simp only [List.forall_mem_cons, values_negated]
  constructor
  · intro hselect
    refine ⟨⟨htables ▸ hselect.tables, ?_, hconditions.1 hselect.conditions⟩, ?_, ?_, ?_, rfl⟩
    · cases h <;> rfl
    · cases h <;> exact fun t ht => absurd ht List.not_mem_nil
    · cases h <;> rfl
    · cases h <;> rfl
  · intro hselect
    refine ⟨⟨htables ▸ hselect.tables, ?_, hconditions.2 hselect.conditions⟩, ?_, ?_, ?_, rfl⟩
    · cases h <;> rfl
    · cases h with
      | filter => exact fun t ht => absurd ht List.not_mem_nil
      | predicate => exact fun t ht => absurd ht List.not_mem_nil
      | favorites =>
        -- The order reads no table that the condition does not read.
        exact fun t ht => hselect.tables t (List.mem_append_right _ (List.mem_append_left _ ht))
    · cases h <;> rfl
    · cases h <;> rfl

/-- A negated condition is true of a post exactly if its predicate is false. -/
theorem conditionTruth_negated_iff {predicate : Predicate} :
    conditionTruth c p ⟨predicate, true⟩ = some true ↔ truthOf c p predicate = some false := by
  rw [conditionTruth, if_pos rfl]
  rcases truthOf c p predicate with _ | _ | _ <;> simp [Truth.not]

/-- What opposed plans select: of the posts that the filters of the viewer leave, the one those of
which the term is true, and the other those of which it is false. -/
theorem exists_truth_of_opposed (h : Plan.Opposed ks query text own plan other) (c : Contents)
    (p : Post) :
    ∃ truth : Truth, ((∀ k ∈ own, ¬ Lacks c p k.predicate) → truth.isSome = true) ∧
      (selects c plan p = true ↔ truth = some true ∧ ∀ k ∈ ks, conditionTruth c p k = some true) ∧
      (selects c other p = true ↔ truth = some false ∧
        ∀ k ∈ ks, conditionTruth c p k = some true) := by
  have hplain (predicate : Predicate) :
      conditionTruth c p ⟨predicate, false⟩ = truthOf c p predicate := rfl
  cases h with
  | filter f =>
    refine ⟨some (carries c p f), fun _ => rfl, ?_, ?_⟩ <;> simp [selects_iff]
  | predicate predicate =>
    refine ⟨truthOf c p predicate, fun h => isSome_truthOf (h _ List.mem_cons_self), ?_, ?_⟩ <;>
      simp [selects_iff, hplain, conditionTruth_negated_iff]
  | favorites name =>
    refine ⟨truthOf c p (.relation .fav (.text name)),
      fun h => isSome_truthOf (h _ List.mem_cons_self), ?_, ?_⟩ <;>
      simp [selects_iff, hplain, conditionTruth_negated_iff]

/-- Where the posts have ids of their own and no pool gives the order, a post is found exactly if it is
selected. -/
theorem mem_selectedIds_iff (hpool : plan.order.key ≠ .ordpool) (hlimit : plan.limit = none)
    (hids : (c.posts.map (·.id)).Nodup) (hp : p ∈ c.posts) :
    p.id ∈ selectedIds c plan none 0 ↔ selects c plan p = true := by
  rw [mem_selectedIds_iff_exists hpool hlimit]
  constructor
  · rintro ⟨q, hq, hid, hselects⟩
    rwa [List.inj_on_of_nodup_map hids hp hq hid.symm]
  · exact fun hselects => ⟨p, hp, rfl, hselects⟩

/-! ## Complements -/

/-- What it means that, on a store, two searches are complements where it is decided: both fail, or
what they find are posts that are shown, none of them found by both, and each post that is shown and of
which it is decided is found by one. -/
def Complements (shown decided : Post → Prop) (w v : Work (List Int)) (s : Store) : Prop :=
  (∃ e f, w.runOn s = (.error e, s) ∧ v.runOn s = (.error f, s)) ∨
    ∃ ids others, w.runOn s = (.ok ids, s) ∧ v.runOn s = (.ok others, s) ∧
      (∀ id, id ∈ ids ∨ id ∈ others → ∃ p ∈ s.contents.posts, p.id = id ∧ shown p) ∧
      (∀ id ∈ ids, id ∉ others) ∧
      ∀ p ∈ s.contents.posts, shown p → decided p → (p.id ∈ others ↔ p.id ∉ ids)

/-- Opposed plans are complements of each other. -/
theorem complements_of_opposed (h : Plan.Opposed ks query text own plan other)
    (hplan : plan.Statable) (hother : other.Statable) (hids : (s.contents.posts.map (·.id)).Nodup) :
    Complements (fun p => ∀ k ∈ ks, conditionTruth s.contents p k = some true)
      (fun p => ∀ k ∈ own, ¬ Lacks s.contents p k.predicate)
      (selectPostIds plan none 0) (selectPostIds other none 0) s := by
  obtain ⟨hpool, hpool'⟩ := key_ne_ordpool_of_opposed h
  obtain ⟨hlimit, hlimit'⟩ := limit_of_opposed h
  by_cases hselect : Selectable plan none 0 s
  · have hselect' := (selectable_iff_of_opposed h).1 hselect
    refine Or.inr ⟨_, _, hselect.runOn_selectPostIds hplan, hselect'.runOn_selectPostIds hother,
      ?_, ?_, ?_⟩
    · rintro id (hid | hid)
      · obtain ⟨p, hp, rfl, hselects⟩ := (mem_selectedIds_iff_exists hpool hlimit).1 hid
        obtain ⟨truth, -, hmeaning, -⟩ := exists_truth_of_opposed h s.contents p
        exact ⟨p, hp, rfl, (hmeaning.1 hselects).2⟩
      · obtain ⟨p, hp, rfl, hselects⟩ := (mem_selectedIds_iff_exists hpool' hlimit').1 hid
        obtain ⟨truth, -, -, hmeaning⟩ := exists_truth_of_opposed h s.contents p
        exact ⟨p, hp, rfl, (hmeaning.1 hselects).2⟩
    · intro id hid hid'
      obtain ⟨p, hp, rfl, hselects⟩ := (mem_selectedIds_iff_exists hpool hlimit).1 hid
      have hselects' := (mem_selectedIds_iff hpool' hlimit' hids hp).1 hid'
      obtain ⟨truth, -, hmeaning, hmeaning'⟩ := exists_truth_of_opposed h s.contents p
      have htrue := (hmeaning.1 hselects).1
      rw [(hmeaning'.1 hselects').1] at htrue
      cases htrue
    · intro p hp hshown hdecided
      rw [mem_selectedIds_iff hpool hlimit hids hp, mem_selectedIds_iff hpool' hlimit' hids hp]
      obtain ⟨truth, hknown, hmeaning, hmeaning'⟩ := exists_truth_of_opposed h s.contents p
      obtain ⟨b, rfl⟩ := Option.isSome_iff_exists.1 (hknown hdecided)
      rw [hmeaning, hmeaning', and_iff_left hshown, and_iff_left hshown]
      cases b <;> simp
  · obtain ⟨e, he⟩ := runOn_selectPostIds_of_not_selectable hplan hselect
    obtain ⟨f, hf⟩ := runOn_selectPostIds_of_not_selectable hother
      fun hselect' => hselect ((selectable_iff_of_opposed h).2 hselect')
    exact Or.inl ⟨e, f, he, hf⟩

/-- Whether the filters of a viewer leave a post for a query of one term. -/
def Shown (viewer : Viewer) (t : Term) (p : Post) : Prop :=
  (viewer.safeMode = true → p.rating = "s") ∧
    (viewer.hideDeleted = true → t.showsDeleted = false → p.isDeleted = 0)

/-- Whether a post lacks nothing of what a term compares. -/
def Decided (config : Config) (viewer : Viewer) (now : Moment) (t : Term) (c : Contents) (p : Post) :
    Prop :=
  ∀ k ∈ t.conditions config viewer now, ¬ Lacks c p k.predicate

/-- A query of one term that is no order, has no mark of its own, and asks for something but not for the
order of a pool, and the query that excludes the term, are complements among the posts that the
filters of the viewer leave: each post that lacks nothing of what the term compares is found by exactly
one of them. If the one is compiled and a tag is allowed at all, so is the other. -/
theorem complements_of_excluded {config : Config} {viewer : Viewer} {query text token : String}
    {plan : Plan} {s u : Searcher} {t : Term} {now : Moment}
    (hplan : (Searcher.compile config viewer query).runOn s = (.ok plan, u))
    (htoken : tokenize query = .ok [token]) (hexcluded : tokenize text = .ok ["-" ++ token])
    (hmark : splitPolarity token.toList = (.required, token.toList))
    (hterm : t = classifyToken (Registry.ofCategories config.categories).names token)
    (hnow : now = referenceMoment viewer s.store.clock)
    (hasks : t.isTag = true ∨ t.conditions config viewer now ≠ []) (hpool : ¬ t.IsOrdpool) :
    (1 ≤ config.tagQueryLimit →
      ∃ other, (Searcher.compile config viewer text).runOn s = (.ok other, u)) ∧
      ∀ s' u' other, (Searcher.compile config viewer text).runOn s' = (.ok other, u') →
        s'.answer = s.answer → referenceMoment viewer s'.store.clock = now →
        ∀ v : Store, (v.contents.posts.map (·.id)).Nodup →
          Complements (Shown viewer t) (Decided config viewer now t v.contents)
            (selectPostIds plan none 0) (selectPostIds other none 0) v := by
  have hnil := (isToken_of_tokenize htoken token (List.mem_singleton.2 rfl)).ne_nil
  have horder : t.kind ≠ .order := by
    intro hkind
    rcases hasks with htag | hconditions
    · simp [Term.isTag, hkind] at htag
    · exact hconditions (by rw [Term.conditions, if_neg (by simp [hkind])])
  obtain ⟨hpolarity, hread'⟩ := classifyToken_excluded hnil hmark (hterm ▸ horder)
  rw [← hterm] at hpolarity hread'
  have hterms : readTerms config query = .ok [t] := by
    rw [readTerms, htoken, hterm]
    rfl
  have hterms' : readTerms config text = .ok [t.excluded] := by
    rw [readTerms, hexcluded, ← hread']
    rfl
  obtain ⟨ts, d, hts, hd, rfl⟩ := extends_of_compile (Searcher.of_runOn_compile hplan)
  obtain rfl := Except.ok.inj (hterms.symm.trans hts)
  rw [← hnow] at hd
  obtain ⟨hcheck, hadd⟩ := draftOf_singleton_eq_ok.1 hd
  obtain ⟨e, hadd', hopposed⟩ := exists_opposed_of_addTerm query text hpolarity hasks hpool hadd
  refine ⟨fun hlimit => ?_, fun s' u' other hother hanswers hmoment v hids => ?_⟩
  · have hchecked := checkedTerms_singleton hterms hcheck
    have hchecked' := checkedTerms_singleton hterms' (checkTagLimit_singleton hlimit t.excluded)
    have hplanned : planOf config s.answer viewer s.store.clock text [t.excluded] =
        .ok (e.finish viewer text) := by
      rw [planOf, ← hnow, Draft.addTerms, hadd']
      rfl
    refine ⟨e.finish viewer text, ?_⟩
    rw [Searcher.runOn_compile_of_same hchecked hchecked' rfl hplan, hplanned]
  · obtain ⟨us, e', hus, he', rfl⟩ := extends_of_compile (Searcher.of_runOn_compile hother)
    obtain rfl := Except.ok.inj (hterms'.symm.trans hus)
    rw [hanswers, hmoment] at he'
    have hsame := (draftOf_singleton_eq_ok.1 he').2
    rw [hadd'] at hsame
    obtain rfl := Except.ok.inj hsame
    have hshown : (fun p => ∀ k ∈ Draft.viewerConditions viewer t.showsDeleted,
        conditionTruth v.contents p k = some true) = Shown viewer t :=
      funext fun p => propext viewerConditions_iff
    rw [← hshown]
    exact complements_of_opposed hopposed ((extends_of_draftOf hd).statable_finish query)
      ((extends_of_draftOf he').statable_finish text) hids

/-- Posts with a score above one, and those with none above it. -/
theorem complements_of_excluded_score :
    let t : Term := ⟨.metatag, .required, "score", some ">1", "score:>1"⟩
    let plan : Plan := ⟨[], [], [], [⟨.range .score (.gt (.integer 1)) none, false⟩], .standard, none,
      "score:>1"⟩
    (1 ≤ Config.standard.tagQueryLimit → ∃ other, (Searcher.compile .standard .anonymous
        "-score:>1").runOn (searcherOf petContents) = (.ok other, searcherOf petContents)) ∧
      ∀ s' u' other, (Searcher.compile .standard .anonymous "-score:>1").runOn s' = (.ok other, u') →
        s'.answer = (searcherOf petContents).answer →
        referenceMoment .anonymous s'.store.clock = ⟨0, 0⟩ →
        ∀ v : Store, (v.contents.posts.map (·.id)).Nodup →
          Complements (Shown .anonymous t) (Decided .standard .anonymous ⟨0, 0⟩ t v.contents)
            (selectPostIds plan none 0) (selectPostIds other none 0) v := by
  intro t plan
  have hplan : (Searcher.compile .standard .anonymous "score:>1").runOn (searcherOf petContents) =
      (.ok plan, searcherOf petContents) := by
    decide +kernel
  have hconditions : t.conditions .standard .anonymous ⟨0, 0⟩ =
      [⟨.range .score (.gt (.integer 1)) none, false⟩] := by
    decide +kernel
  have htoken : tokenize "score:>1" = .ok ["score:>1"] := by
    decide +kernel
  refine complements_of_excluded hplan htoken (by decide +kernel) (by decide +kernel)
    (by decide +kernel) rfl (Or.inr ?_) ?_
  · rw [hconditions]
    exact List.cons_ne_nil _ _
  · unfold Term.IsOrdpool
    decide +kernel

/-- A plan that selects no rows finds nothing. -/
theorem runOn_selectPostIds_of_no_rows {f : Fragment} (hstatement : plan.selectStatement none 0 = .ok f)
    (hreadable : Work.Readable (sourceTables plan ++ orderTables plan.order) f.params s)
    (hrows : selectedRows s.contents plan = []) :
    (selectPostIds plan none 0).runOn s = (.ok [], s) := by
  have hlift : (Work.lift (plan.selectStatement none 0)).runOn s = (.ok f, s) := by
    rw [Work.runOn_lift, hstatement]
  have hids : selectedIds s.contents plan none 0 = [] := by
    have hsorted := (sortRows_perm (c := s.contents) plan.order []).eq_nil
    rw [selectedIds, hrows, hsorted, page]
    simp
  rw [selectPostIds, Work.runOn_bind_of_ok hlift, runOn_run_of_readable hreadable, hids]

/-- A post is found neither by a term nor by its exclusion if the viewer keeps to safe posts and it is
none, or if the term names a user whom there is not. -/
theorem selectPostIds_of_excluded_nothing :
    let s := searcherOf petContents
    let safe : Viewer := { Viewer.anonymous with safeMode := true }
    s.store.contents.posts.length = 2 ∧
      (∃ plan other, ((Searcher.compile .standard safe "bird").runOn s).1 = .ok plan ∧
        ((Searcher.compile .standard safe "-bird").runOn s).1 = .ok other ∧
        (selectPostIds plan none 0).runOn s.store = (.ok [], s.store) ∧
        (selectPostIds other none 0).runOn s.store = (.ok [], s.store)) ∧
      ∃ plan other, ((Searcher.compile .standard .anonymous "user:bob").runOn s).1 = .ok plan ∧
        ((Searcher.compile .standard .anonymous "-user:bob").runOn s).1 = .ok other ∧
        (selectPostIds plan none 0).runOn s.store = (.ok [], s.store) ∧
        (selectPostIds other none 0).runOn s.store = (.ok [], s.store) := by
  intro s safe
  refine ⟨rfl,
    ⟨⟨[⟨"bird", false⟩], [], [], [⟨.range .rating (.eq (.text "s")) none, false⟩], .standard, none,
        "bird"⟩,
      ⟨[], [⟨"bird", false⟩], [], [⟨.range .rating (.eq (.text "s")) none, false⟩], .standard, none,
        "-bird"⟩, by decide +kernel, by decide +kernel, ?_, ?_⟩,
    ⟨[], [], [], [⟨.relation .uploader (.text "bob"), false⟩], .standard, none, "user:bob"⟩,
    ⟨[], [], [], [⟨.relation .uploader (.text "bob"), true⟩], .standard, none, "-user:bob"⟩,
    by decide +kernel, by decide +kernel, ?_, ?_⟩
  all_goals
    exact runOn_selectPostIds_of_no_rows rfl ⟨by decide, by decide⟩ (by decide +kernel)

end Search

end Imageboard
