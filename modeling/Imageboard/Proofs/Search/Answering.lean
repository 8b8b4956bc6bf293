import Imageboard.Proofs.Search.Compiling

/-!
# What a searcher takes names for

A searcher answers each name in one way, whether from memory or from the store, for as long as the
store stays the same, and makes plans with these answers. Nothing is assumed about the memory here: it
need not be right.
-/

namespace Imageboard.Searcher

open SearchWork

variable {s t : Searcher} {name target : String}

/-- What a searcher takes a name to stand for: what is remembered of the present alias generation, or
else what the store says. -/
def answer (s : Searcher) (name : String) : String :=
  (s.refreshed.aliases.find? name).getD (s.store.contents.standsFor name)

/-- A name that is resolved is answered, and all answers stay as they are. -/
theorem of_runOn_resolve (hrun : (resolve name).runOn s = (.ok target, t)) :
    target = s.answer name ∧ t.store = s.store ∧ t.answer = s.answer := by
  have hgeneration := AliasCache.generation_current s.aliases s.store.aliasGeneration
  have hsame : s.refreshed.refreshed.aliases = s.refreshed.aliases :=
    AliasCache.current_of_generation hgeneration
  cases hfound : s.refreshed.aliases.find? name with
  | some remembered =>
    rw [runOn_resolve_of_remembered hfound] at hrun
    obtain ⟨htarget, rfl⟩ := Prod.mk.inj hrun
    obtain rfl := Except.ok.inj htarget
    refine ⟨by rw [answer, hfound, Option.getD_some], rfl, funext fun other => ?_⟩
    rw [answer, hsame, answer]
    rfl
  | none =>
    by_cases htable : s.store.contents.has .aliases
    · rw [Searcher.runOn_resolve htable, hfound] at hrun
      obtain ⟨htarget, rfl⟩ := Prod.mk.inj hrun
      obtain rfl := Except.ok.inj htarget
      refine ⟨by rw [answer, hfound, Option.getD_none], rfl, funext fun other => ?_⟩
      have hput : (s.refreshed.aliases.put name (s.store.contents.standsFor name)).generation =
          s.store.aliasGeneration := hgeneration
      change (((s.refreshed.aliases.put name (s.store.contents.standsFor name)).current
        s.store.aliasGeneration).find? other).getD (s.store.contents.standsFor other) = s.answer other
      rw [AliasCache.current_of_generation hput, AliasCache.find?_put]
      split
      next heq =>
        subst heq
        rw [answer, hfound, Option.getD_some, Option.getD_none]
      next => rfl
    · obtain ⟨e, u, hu⟩ := runOn_resolve_of_no_table hfound htable
      rw [hu] at hrun
      cases congrArg Prod.fst hrun

/-- Names that are resolved are answered, and all answers stay as they are. -/
theorem of_runOn_resolveEach {names : List String} {answers : List (String × String)}
    (hrun : (resolveEach names).runOn s = (.ok answers, t)) :
    answers = names.map (fun name => (name, s.answer name)) ∧ t.store = s.store ∧
      t.answer = s.answer := by
  induction names generalizing s t answers with
  | nil =>
    obtain ⟨hanswers, rfl⟩ := Prod.mk.inj hrun
    exact ⟨(Except.ok.inj hanswers).symm, rfl, rfl⟩
  | cons name rest ih =>
    obtain ⟨target, u, hfirst, hrest⟩ := runOn_bind_eq_ok.1 hrun
    obtain ⟨more, v, hmore, hdone⟩ := runOn_bind_eq_ok.1 hrest
    obtain ⟨rfl, hstore, hanswer⟩ := of_runOn_resolve hfirst
    obtain ⟨rfl, hstore', hanswer'⟩ := ih hmore
    obtain ⟨hanswers, rfl⟩ := Prod.mk.inj hdone
    rw [hanswer] at hanswers hanswer'
    exact ⟨(Except.ok.inj hanswers).symm, hstore'.trans hstore, hanswer'⟩

/-- A plan that a searcher makes is the one for what it takes the names of the query for. -/
theorem of_runOn_compile {config : Config} {viewer : Viewer} {query : String} {plan : Query.Plan}
    (hrun : (compile config viewer query).runOn s = (.ok plan, t)) :
    Query.compile config s.answer viewer s.store.clock query = .ok plan := by
  rw [compile, runOn_bind_of_ok (runOn_get s)] at hrun
  obtain ⟨ts, u, hlift, hrun⟩ := runOn_bind_eq_ok.1 hrun
  obtain ⟨hterms, rfl⟩ := Prod.mk.inj hlift
  obtain ⟨answers, u, hanswers, hrun⟩ := runOn_bind_eq_ok.1 hrun
  obtain ⟨rfl, -, -⟩ := of_runOn_resolveEach hanswers
  obtain ⟨hplan, rfl⟩ := Prod.mk.inj hrun
  rw [Query.planOf_congr fun _ hname => lookUp_map s.answer hname] at hplan
  rw [Query.compile, hterms]
  exact hplan

end Imageboard.Searcher
