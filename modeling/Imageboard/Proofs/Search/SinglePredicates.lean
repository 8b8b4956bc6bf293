import Imageboard.Proofs.Search.Answering
import Imageboard.Proofs.Search.Complement

/-!
# Queries of a single predicate

A query that is one metatag with a predicate asks for nothing else: its plan has the predicate and the
filters of the viewer as its conditions, and a searcher makes it without asking what a name stands for.
Where the tables of the predicate are there, the search finds each post that the filters leave and of
which the predicate is true, and no other.
-/

namespace Imageboard

open Query

variable {config : Config} {viewer : Viewer} {query : String} {t : Term} {predicate : Predicate}

/-- Whether the filters of a viewer leave a post where a query does not bring deleted posts back. -/
structure Viewer.Leaves (viewer : Viewer) (p : Post) : Prop where
  safe : viewer.safeMode = true → p.rating = "s"
  kept : viewer.hideDeleted = true → p.isDeleted = 0

namespace Query

/-- The plan of a query that is one predicate. -/
def predicatePlan (viewer : Viewer) (query : String) (predicate : Predicate) : Plan :=
  ⟨[], [], [], ⟨predicate, false⟩ :: Draft.viewerConditions viewer false, .standard, none, query⟩

/-- Whether a term asks for a predicate and for nothing else. -/
structure Term.AsksFor (config : Config) (viewer : Viewer) (now : Moment) (t : Term)
    (predicate : Predicate) : Prop where
  metatag : t.kind = .metatag
  required : t.polarity = .required
  other : t.name ≠ "status"
  effect : t.effect config viewer now = .ok (.select predicate)

/-- The one term makes the plan of its predicate. -/
theorem Term.AsksFor.planOf {clock : Moment}
    (h : t.AsksFor config viewer (referenceMoment viewer clock) predicate) (resolve : String → String) :
    planOf config resolve viewer clock query [t] = .ok (predicatePlan viewer query predicate) := by
  have heffect := h.effect
  unfold Term.effect at heffect
  simp only [Query.planOf, Draft.addTerms, Draft.addTerm, h.metatag, heffect, h.required, h.other]
  rfl

end Query

/-- A searcher makes the plan of a predicate without asking what a name stands for. -/
theorem Searcher.runOn_compile_of_asksFor {s : Searcher} (hlimit : 1 ≤ config.tagQueryLimit)
    (hread : readTerms config query = .ok [t])
    (h : t.AsksFor config viewer (referenceMoment viewer s.store.clock) predicate) :
    (compile config viewer query).runOn s = (.ok (predicatePlan viewer query predicate), s) := by
  have hterms : checkedTerms config query = .ok [t] :=
    checkedTerms_singleton hread (checkTagLimit_singleton hlimit _)
  have hlookups : aliasLookups config viewer s.store.clock [t] = [] := by
    have heffect := h.effect
    unfold Term.effect at heffect
    simp only [aliasLookups, h.metatag, heffect]
  have hplan : planOf config (lookUp []) viewer s.store.clock query [t] =
      .ok (predicatePlan viewer query predicate) := h.planOf (lookUp [])
  rw [compile, SearchWork.runOn_bind_of_ok (SearchWork.runOn_get s), hterms,
    SearchWork.runOn_bind_of_ok (SearchWork.runOn_lift _ _), hlookups,
    SearchWork.runOn_bind_of_ok (show (resolveEach []).runOn s = (.ok [], s) from rfl), hplan]
  rfl

namespace Search

variable {c : Contents} {p : Post} {s : Store}

/-- The plan of a predicate that can be written can be. -/
theorem statable_predicatePlan (h : predicate.Statable) :
    (predicatePlan viewer query predicate).Statable := by
  refine ⟨fun k hk => ?_, ⟨_, rfl⟩⟩
  rcases List.mem_cons.1 hk with rfl | hk
  · exact h.condition false
  · exact Draft.statable_viewerConditions hk

/-- The filters of a viewer read no tables and bind what can be bound. -/
theorem of_mem_viewerConditions {showsDeleted : Bool} {k : Condition}
    (hk : k ∈ Draft.viewerConditions viewer showsDeleted) :
    predicateTables k.predicate = [] ∧ k.values.all Value.fits = true := by
  rcases Draft.cases_of_mem_viewerConditions hk with rfl | rfl <;> exact ⟨rfl, rfl⟩

/-- The plan of a predicate is carried out where there are posts and the tables of the predicate. -/
theorem selectable_predicatePlan (hposts : s.contents.has .posts)
    (htables : ∀ t ∈ predicateTables predicate, s.contents.has t)
    (hfits : (Condition.mk predicate false).values.all Value.fits = true) :
    Selectable (predicatePlan viewer query predicate) none 0 s := by
  have hsource : sourceTables (predicatePlan viewer query predicate) =
      .posts :: predicateTables predicate := by
    have hfilters : (Draft.viewerConditions viewer false).flatMap
        (fun k => predicateTables k.predicate) = [] :=
      List.flatMap_eq_nil_iff.2 fun k hk => (of_mem_viewerConditions hk).1
    simp [sourceTables, predicatePlan, hfilters, Order.standard]
  refine ⟨⟨?_, rfl, fun k hk => ?_⟩, fun t ht => absurd ht List.not_mem_nil, rfl, rfl, rfl⟩
  · rw [hsource]
    exact List.forall_mem_cons.2 ⟨hposts, htables⟩
  · rcases List.mem_cons.1 hk with rfl | hk
    · exact hfits
    · exact (of_mem_viewerConditions hk).2

/-- The plan of a predicate selects the posts that the filters of the viewer leave and of which the
predicate is true. -/
theorem selects_predicatePlan_iff :
    selects c (predicatePlan viewer query predicate) p = true ↔ truthOf c p predicate = some true ∧
      ∀ k ∈ Draft.viewerConditions viewer false, conditionTruth c p k = some true := by
  have hplain : conditionTruth c p ⟨predicate, false⟩ = truthOf c p predicate := rfl
  simp [selects_iff, predicatePlan, hplain]

/-- A pool does not give the order of a plan of a predicate. -/
theorem key_ne_ordpool_predicatePlan : (predicatePlan viewer query predicate).order.key ≠ .ordpool :=
  nofun

/-- What is selected for a predicate are the posts that the filters of the viewer leave and of which the
predicate is true. -/
theorem mem_selectedIds_predicatePlan_iff {id : Int} :
    id ∈ selectedIds c (predicatePlan viewer query predicate) none 0 ↔
      ∃ p ∈ c.posts, p.id = id ∧ viewer.Leaves p ∧ truthOf c p predicate = some true := by
  rw [mem_selectedIds_iff_exists key_ne_ordpool_predicatePlan rfl]
  refine exists_congr fun p => and_congr_right fun _ => and_congr_right fun _ => ?_
  rw [selects_predicatePlan_iff, viewerConditions_iff]
  constructor
  · rintro ⟨htrue, hsafe, hkept⟩
    exact ⟨⟨hsafe, fun hhide => hkept hhide rfl⟩, htrue⟩
  · rintro ⟨hleaves, htrue⟩
    exact ⟨htrue, hleaves.safe, fun hhide _ => hleaves.kept hhide⟩

end Search

/-- The search for a predicate finds each post that the filters of the viewer leave and of which the
predicate is true, and no other. -/
theorem Searcher.exists_search_of_asksFor {s : Searcher} (hlimit : 1 ≤ config.tagQueryLimit)
    (hread : readTerms config query = .ok [t])
    (h : t.AsksFor config viewer (referenceMoment viewer s.store.clock) predicate)
    (hstatable : predicate.Statable) (hposts : s.store.contents.has .posts)
    (htables : ∀ table ∈ Search.predicateTables predicate, s.store.contents.has table)
    (hfits : (Condition.mk predicate false).values.all Value.fits = true)
    (hids : (s.store.contents.posts.map (·.id)).Nodup) :
    ∃ ids, (search config viewer query none 0).runOn s = (.ok ids, s) ∧ ids.Nodup ∧
      ∀ id, id ∈ ids ↔ ∃ p ∈ s.store.contents.posts, p.id = id ∧ viewer.Leaves p ∧
        Search.truthOf s.store.contents p predicate = some true := by
  have hselect : Search.Selectable (predicatePlan viewer query predicate) none 0 s.store :=
    Search.selectable_predicatePlan hposts htables hfits
  refine ⟨Search.selectedIds s.store.contents (predicatePlan viewer query predicate) none 0, ?_,
    Search.nodup_selectedIds Search.key_ne_ordpool_predicatePlan rfl hids,
    fun id => Search.mem_selectedIds_predicatePlan_iff⟩
  rw [search, SearchWork.runOn_bind_of_ok (runOn_compile_of_asksFor hlimit hread h),
    SearchWork.runOn_ofWork, hselect.runOn_selectPostIds (Search.statable_predicatePlan hstatable)]

end Imageboard
