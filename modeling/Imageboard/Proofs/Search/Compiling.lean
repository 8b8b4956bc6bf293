import Imageboard.Proofs.Search.Resolving

/-!
# Plans of searchers

A searcher first asks what the names of a query stand for and then makes the plan from the answers.
If what it remembers is right, the plan is the one for the names as they stand in the store: making a
plan asks for each name that it needs.
-/

namespace Imageboard

namespace Query

variable {config : Config} {viewer : Viewer} {clock : Moment} {resolve other : String → String}

/-- Two ways to resolve names add the same terms if they agree on the names that are asked for. -/
theorem addTerms_congr {d : Draft} {ts : List Term}
    (hagree : ∀ name ∈ aliasLookups config viewer clock ts, resolve name = other name) :
    Draft.addTerms config resolve viewer (referenceMoment viewer clock) d ts =
      Draft.addTerms config other viewer (referenceMoment viewer clock) d ts := by
  induction ts generalizing d with
  | nil => rfl
  | cons t rest ih =>
    rw [Draft.addTerms, Draft.addTerms]
    rw [aliasLookups] at hagree
    unfold Draft.addTerm
    cases hkind : t.kind with
    | tag =>
      simp only [hkind, List.mem_cons, forall_eq_or_imp] at hagree ⊢
      rw [hagree.1, ih hagree.2]
    | metatag =>
      simp only [hkind] at hagree ⊢
      cases heffect : (Registry.ofCategories config.categories).evaluate viewer
          (referenceMoment viewer clock) t.name (t.value.getD "") with
      | error e => rfl
      | ok effect =>
        simp only [heffect] at hagree ⊢
        exact ih hagree
    | wildcard =>
      simp only [hkind] at hagree ⊢
      exact ih hagree
    | order =>
      simp only [hkind] at hagree ⊢
      exact ih hagree

/-- Two ways to resolve names make the same plan if they agree on the names that are asked for. -/
theorem planOf_congr {query : String} {ts : List Term}
    (hagree : ∀ name ∈ aliasLookups config viewer clock ts, resolve name = other name) :
    planOf config resolve viewer clock query ts = planOf config other viewer clock query ts := by
  rw [planOf, planOf, addTerms_congr hagree]

end Query

/-- A sequence succeeds exactly if its first step and then its rest do. -/
theorem SearchWork.runOn_bind_eq_ok {α β : Type} {x : SearchWork α} {f : α → SearchWork β}
    {s t : Searcher} {b : β} :
    (x >>= f).runOn s = (.ok b, t) ↔
      ∃ a m, x.runOn s = (.ok a, m) ∧ (f a).runOn m = (.ok b, t) := by
  rw [runOn_bind]
  rcases x.runOn s with ⟨_ | a, m⟩
  · simp
  · constructor
    · exact fun h => ⟨a, m, rfl, h⟩
    · rintro ⟨a', m', heq, h⟩
      obtain ⟨ha, rfl⟩ := Prod.mk.inj heq
      cases ha
      exact h

namespace Searcher

open SearchWork

variable {s t : Searcher} {name target : String}

/-- What a searcher remembers stays right when it forgets other alias generations. -/
theorem Faithful.refreshed (h : s.Faithful) : s.refreshed.Faithful := by
  have hsame : s.refreshed.refreshed.aliases = s.refreshed.aliases :=
    AliasCache.current_of_generation (AliasCache.generation_current _ _)
  intro name target hfound
  rw [hsame] at hfound
  exact h name target hfound

/-- A name that is remembered is answered without the store. -/
theorem runOn_resolve_of_remembered (hfound : s.refreshed.aliases.find? name = some target) :
    (resolve name).runOn s = (.ok target, s.refreshed) := by
  have hfirst : SearchWork.runOn (modify fun s => { s with
      aliases := s.aliases.current s.store.aliasGeneration }) s = (.ok ⟨⟩, s.refreshed) := rfl
  rw [resolve, runOn_bind_of_ok hfirst, runOn_bind_of_ok (runOn_get _), hfound]
  rfl

/-- A name that is not remembered is answered from the table of aliases only. -/
theorem runOn_resolve_of_no_table (hnone : s.refreshed.aliases.find? name = none)
    (htable : ¬ s.store.contents.has .aliases) : ∃ e u, (resolve name).runOn s = (.error e, u) := by
  have hfirst : SearchWork.runOn (modify fun s => { s with
      aliases := s.aliases.current s.store.aliasGeneration }) s = (.ok ⟨⟩, s.refreshed) := rfl
  have hunreadable : ¬ Work.Readable [.aliases] [] s.store :=
    fun h => htable (h.tables _ (List.mem_singleton.2 rfl))
  obtain ⟨e, he⟩ := Work.runOn_read_of_not_readable hunreadable fun c => c.aliasOf? name
  have hread : (SearchWork.ofWork (Store.activeAliasConsequent name)).runOn s.refreshed =
      (.error e, s.refreshed) := by
    rw [runOn_ofWork, Store.activeAliasConsequent, show s.refreshed.store = s.store from rfl, he]
    rfl
  rw [resolve, runOn_bind_of_ok hfirst, runOn_bind_of_ok (runOn_get _), hnone]
  dsimp only
  rw [runOn_bind, hread]
  exact ⟨e, s.refreshed, rfl⟩

/-- An answer of a searcher with a right memory is right, and the memory stays right. -/
theorem Faithful.of_runOn_resolve (h : s.Faithful) (hrun : (resolve name).runOn s = (.ok target, t)) :
    target = s.store.contents.standsFor name ∧ t.store = s.store ∧ t.Faithful := by
  by_cases htable : s.store.contents.has .aliases
  · obtain ⟨u, hu, hstore, hfaithful⟩ := h.runOn_resolve htable name
    rw [hu] at hrun
    obtain ⟨htarget, rfl⟩ := Prod.mk.inj hrun
    exact ⟨(Except.ok.inj htarget).symm, hstore, hfaithful⟩
  · cases hfound : s.refreshed.aliases.find? name with
    | some remembered =>
      rw [runOn_resolve_of_remembered hfound] at hrun
      obtain ⟨htarget, rfl⟩ := Prod.mk.inj hrun
      obtain rfl := Except.ok.inj htarget
      exact ⟨h _ _ hfound, rfl, h.refreshed⟩
    | none =>
      obtain ⟨e, u, hu⟩ := runOn_resolve_of_no_table hfound htable
      rw [hu] at hrun
      cases congrArg Prod.fst hrun

/-- The answers to some names as they stand in the store. -/
def answersIn (c : Contents) (names : List String) : List (String × String) :=
  names.map fun name => (name, c.standsFor name)

/-- The answers of a searcher with a right memory are right, and the memory stays right. -/
theorem Faithful.of_runOn_resolveEach {names : List String} {answers : List (String × String)}
    (h : s.Faithful) (hrun : (resolveEach names).runOn s = (.ok answers, t)) :
    answers = answersIn s.store.contents names ∧ t.store = s.store ∧ t.Faithful := by
  induction names generalizing s t answers with
  | nil =>
    obtain ⟨hanswers, rfl⟩ := Prod.mk.inj hrun
    exact ⟨(Except.ok.inj hanswers).symm, rfl, h⟩
  | cons name rest ih =>
    obtain ⟨target, u, hfirst, hrest⟩ := runOn_bind_eq_ok.1 hrun
    obtain ⟨more, v, hmore, hdone⟩ := runOn_bind_eq_ok.1 hrest
    obtain ⟨rfl, hstore, hfaithful⟩ := h.of_runOn_resolve hfirst
    obtain ⟨rfl, hstore', hfaithful'⟩ := ih hfaithful hmore
    obtain ⟨hanswers, rfl⟩ := Prod.mk.inj hdone
    rw [hstore] at hanswers hstore'
    exact ⟨(Except.ok.inj hanswers).symm, hstore', hfaithful'⟩

/-- With the table of aliases there, a searcher with a right memory answers all names. -/
theorem Faithful.runOn_resolveEach (h : s.Faithful) (htable : s.store.contents.has .aliases)
    (names : List String) :
    ∃ u, (resolveEach names).runOn s = (.ok (answersIn s.store.contents names), u) ∧
      u.store = s.store ∧ u.Faithful := by
  induction names generalizing s with
  | nil => exact ⟨s, rfl, rfl, h⟩
  | cons name rest ih =>
    obtain ⟨u, hfirst, hstore, hfaithful⟩ := h.runOn_resolve htable name
    obtain ⟨v, hmore, hstore', hfaithful'⟩ := ih hfaithful (hstore ▸ htable)
    refine ⟨v, ?_, hstore'.trans hstore, hfaithful'⟩
    rw [resolveEach, runOn_bind_of_ok hfirst, runOn_bind_of_ok hmore, hstore]
    rfl

/-- A name that was answered is looked up as it was answered. -/
theorem lookUp_map (answer : String → String) {names : List String} (hname : name ∈ names) :
    lookUp (names.map fun name => (name, answer name)) name = answer name := by
  have hfind : (names.map fun name => (name, answer name)).find? (·.1 = name) =
      some (name, answer name) := by
    induction names with
    | nil => simp at hname
    | cons first rest ih =>
      rw [List.map_cons, List.find?_cons]
      by_cases hfirst : first = name
      · simp [hfirst]
      · simp only [hfirst, decide_false]
        exact ih ((List.mem_cons.1 hname).resolve_left (Ne.symm hfirst))
  rw [lookUp, hfind]
  rfl

/-- A name that was asked for is looked up as it stands in the store. -/
theorem lookUp_answersIn {c : Contents} {names : List String} (hname : name ∈ names) :
    lookUp (answersIn c names) name = c.standsFor name :=
  lookUp_map c.standsFor hname

variable {config : Config} {viewer : Viewer} {query : String}

/-- The plan for the names as they stand in the store is the one for the answers. -/
theorem planOf_lookUp (c : Contents) (clock : Moment) (ts : List Query.Term) :
    Query.planOf config (lookUp (answersIn c (Query.aliasLookups config viewer clock ts))) viewer
      clock query ts = Query.planOf config c.standsFor viewer clock query ts :=
  Query.planOf_congr fun _ hname => lookUp_answersIn hname

/-- A plan that a searcher with a right memory makes is the one for the names as they stand in the
store, and the memory stays right. -/
theorem Faithful.of_runOn_compile {plan : Query.Plan} (h : s.Faithful)
    (hrun : (compile config viewer query).runOn s = (.ok plan, t)) :
    Query.compile config s.store.contents.standsFor viewer s.store.clock query = .ok plan ∧
      t.store = s.store ∧ t.Faithful := by
  rw [compile, runOn_bind_of_ok (runOn_get s)] at hrun
  obtain ⟨ts, u, hlift, hrun⟩ := runOn_bind_eq_ok.1 hrun
  obtain ⟨hterms, rfl⟩ := Prod.mk.inj hlift
  obtain ⟨answers, u, hanswers, hrun⟩ := runOn_bind_eq_ok.1 hrun
  obtain ⟨rfl, hstore, hfaithful⟩ := h.of_runOn_resolveEach hanswers
  obtain ⟨hplan, rfl⟩ := Prod.mk.inj hrun
  rw [planOf_lookUp] at hplan
  exact ⟨by rw [Query.compile, hterms]; exact hplan, hstore, hfaithful⟩

/-- With the table of aliases there, a searcher with a right memory makes the plan for the names as
they stand in the store, or fails as that does. -/
theorem Faithful.runOn_compile (h : s.Faithful) (htable : s.store.contents.has .aliases)
    (config : Config) (viewer : Viewer) (query : String) :
    ∃ u, (compile config viewer query).runOn s =
        (Query.compile config s.store.contents.standsFor viewer s.store.clock query, u) ∧
      u.store = s.store ∧ u.Faithful := by
  rw [compile, runOn_bind_of_ok (runOn_get s), Query.compile]
  cases hterms : Query.checkedTerms config query with
  | error e => exact ⟨s, rfl, rfl, h⟩
  | ok ts =>
    obtain ⟨u, hanswers, hstore, hfaithful⟩ :=
      h.runOn_resolveEach htable (Query.aliasLookups config viewer s.store.clock ts)
    refine ⟨u, ?_, hstore, hfaithful⟩
    rw [runOn_bind_of_ok (runOn_lift _ _), runOn_bind_of_ok hanswers, planOf_lookUp]
    rfl

end Searcher

end Imageboard
