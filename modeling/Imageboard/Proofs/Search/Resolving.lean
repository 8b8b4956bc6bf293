import Imageboard.Proofs.Relationship.WellRelated
import Imageboard.Proofs.Search.Reading

/-!
# What names stand for

A searcher answers what a name stands for from what it remembers, or else from the store. As long as
what it remembers is right, so are its answers; and in a store with well related names, what a name
stands for stands for itself.
-/

namespace Imageboard

/-- What a name stands for: the consequent of its alias in force, or else itself. -/
def Contents.standsFor (c : Contents) (name : String) : String :=
  (c.aliasOf? name).getD name

/-- In well related contents, what a name stands for stands for itself. -/
theorem Contents.WellRelated.standsFor_standsFor {c : Contents} (h : c.WellRelated) (name : String) :
    c.standsFor (c.standsFor name) = c.standsFor name := by
  cases htarget : c.aliasOf? name with
  | none => simp only [standsFor, htarget, Option.getD_none]
  | some target =>
    have hnot : target ∉ c.aliased := h.flat _ (mem_inForce_of_aliasOf? htarget)
    simp only [standsFor, htarget, Option.getD_some, aliasOf?_eq_none_iff.2 hnot, Option.getD_none]

namespace AliasCache

/-- What is remembered of an alias generation belongs to it. -/
theorem generation_current (a : AliasCache) (generation : Nat) :
    (a.current generation).generation = generation := by
  rw [current]
  split
  · assumption
  · rfl

/-- What belongs to an alias generation is remembered of it. -/
theorem current_of_generation {a : AliasCache} {generation : Nat} (h : a.generation = generation) :
    a.current generation = a :=
  if_pos h

/-- A name that was put is found with what was put, and others are found as before. -/
theorem find?_put (a : AliasCache) (name target other : String) :
    (a.put name target).find? other = if name = other then some target else a.find? other := by
  by_cases h : name = other <;> simp [put, find?, h]

end AliasCache

namespace Searcher

open SearchWork

/-- A searcher who has forgotten what belongs to other alias generations. -/
def refreshed (s : Searcher) : Searcher :=
  { s with aliases := s.aliases.current s.store.aliasGeneration }

/-- What a searcher remembers of the present alias generation is right. -/
def Faithful (s : Searcher) : Prop :=
  ∀ name target, s.refreshed.aliases.find? name = some target →
    target = s.store.contents.standsFor name

/-- A searcher who remembers no names remembers nothing wrong. -/
theorem faithful_fresh (s : Store) (counts : CountCache) : Faithful ⟨s, .fresh s, counts⟩ := by
  intro name target h
  simp [refreshed, AliasCache.fresh, AliasCache.current, AliasCache.find?] at h

/-- A name is answered from memory, or else from the store, and is remembered then. -/
theorem runOn_resolve {s : Searcher} (htable : s.store.contents.has .aliases) (name : String) :
    (resolve name).runOn s =
      match s.refreshed.aliases.find? name with
      | some target => (.ok target, s.refreshed)
      | none => (.ok (s.store.contents.standsFor name), { s.refreshed with
          aliases := s.refreshed.aliases.put name (s.store.contents.standsFor name) }) := by
  have hfirst : SearchWork.runOn (modify fun s => { s with
      aliases := s.aliases.current s.store.aliasGeneration }) s = (.ok ⟨⟩, s.refreshed) := rfl
  have hlook : SearchWork.runOn get s.refreshed = (.ok s.refreshed, s.refreshed) := rfl
  rw [resolve, runOn_bind_of_ok hfirst, runOn_bind_of_ok hlook]
  cases s.refreshed.aliases.find? name with
  | some target => rfl
  | none =>
    have hreadable : Work.Readable [.aliases] [] s.store :=
      ⟨fun t ht => by rwa [List.mem_singleton.1 ht], rfl⟩
    have hread : (SearchWork.ofWork (Store.activeAliasConsequent name)).runOn s.refreshed =
        (.ok (s.store.contents.aliasOf? name), s.refreshed) := by
      change (((Store.activeAliasConsequent name).runOn s.store).1, { s.refreshed with
        store := ((Store.activeAliasConsequent name).runOn s.store).2 }) = _
      rw [Store.activeAliasConsequent, Work.runOn_read_of_readable hreadable]
      rfl
    dsimp only
    rw [runOn_bind_of_ok hread]
    rfl

/-- A searcher with a right memory answers right, and the memory stays right. -/
theorem Faithful.runOn_resolve {s : Searcher} (h : s.Faithful)
    (htable : s.store.contents.has .aliases) (name : String) :
    ∃ t, (resolve name).runOn s = (.ok (s.store.contents.standsFor name), t) ∧ t.store = s.store ∧
      t.Faithful := by
  have hgeneration := AliasCache.generation_current s.aliases s.store.aliasGeneration
  rw [Searcher.runOn_resolve htable]
  cases hfound : s.refreshed.aliases.find? name with
  | some target =>
    refine ⟨s.refreshed, by rw [h name target hfound], rfl, fun other target => ?_⟩
    have hsame : s.refreshed.refreshed.aliases = s.refreshed.aliases :=
      AliasCache.current_of_generation hgeneration
    rw [hsame]
    exact h other target
  | none =>
    refine ⟨_, rfl, rfl, fun other target => ?_⟩
    have hput : (s.refreshed.aliases.put name (s.store.contents.standsFor name)).generation =
        s.store.aliasGeneration := hgeneration
    change ((s.refreshed.aliases.put name (s.store.contents.standsFor name)).current
      s.store.aliasGeneration).find? other = some target → target = s.store.contents.standsFor other
    rw [AliasCache.current_of_generation hput, AliasCache.find?_put]
    split
    next heq => exact fun hsome => heq ▸ (Option.some.inj hsome).symm
    next => exact h other target

end Searcher

end Imageboard
