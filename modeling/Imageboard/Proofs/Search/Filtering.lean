import Imageboard.Proofs.Query.Viewing
import Imageboard.Proofs.Search.FilterTerms
import Imageboard.Proofs.Search.Selecting

/-!
# Planning a query with its filters

On a board with the standard settings a query with the filters of a viewer as terms can be planned
exactly if the query can, in the same order. It selects what the query selects for the viewer and,
where deleted posts are hidden, more: a query that mentions the status at all is left without the
filter, and the filter is that the mark of deletion is not one where a search wants it to be zero.
-/

namespace Imageboard.Search

open Query

section Planning

variable {config : Config} {resolve : String → String} {viewer other : Viewer} {now : Moment}
  {ts : List Term} {d : Draft}

/-- What keeps to safe posts. -/
def safeCondition : Condition :=
  ⟨.range .rating (.eq (.text "s")) none, false⟩

/-- What leaves out the posts that are marked as deleted. -/
def undeletedCondition : Condition :=
  ⟨.flags [.deleted] true .all, true⟩

/-- The filter on the rating contributes its condition. -/
theorem effect_safeTerm : safeTerm.effect .standard other now = .ok (.select safeCondition.predicate) := by
  have hfind : (Registry.ofCategories Config.standard.categories).find? (Text.lowerString "rating") =
      some (.texts .rating true) := by decide +kernel
  have happly : Handler.apply other now "s" (.texts .rating true) =
      .ok (.select safeCondition.predicate) := rfl
  simp only [Term.effect, Registry.evaluate, safeTerm, hfind]
  exact happly

/-- The filter on deleted posts contributes its condition. -/
theorem effect_undeletedTerm :
    undeletedTerm.effect .standard other now = .ok (.select undeletedCondition.predicate) := by
  have hfind : (Registry.ofCategories Config.standard.categories).find? (Text.lowerString "status") =
      some .status := by decide +kernel
  have happly : Handler.apply other now "deleted" .status =
      .ok (.select undeletedCondition.predicate) := rfl
  simp only [Term.effect, Registry.evaluate, undeletedTerm, hfind]
  exact happly

/-- The conditions of the filter on the rating. -/
theorem conditions_safeTerm : safeTerm.conditions .standard other now = [safeCondition] := by
  rw [Term.conditions, if_pos (show safeTerm.kind = .metatag from rfl), effect_safeTerm]
  rfl

/-- The conditions of the filter on deleted posts. -/
theorem conditions_undeletedTerm :
    undeletedTerm.conditions .standard other now = [undeletedCondition] := by
  rw [Term.conditions, if_pos (show undeletedTerm.kind = .metatag from rfl), effect_undeletedTerm]
  rfl

/-- The terms of filters are two. -/
theorem eq_of_mem_filterTerms {t : Term} (ht : t ∈ filterTerms viewer ts) :
    t = safeTerm ∨ t = undeletedTerm := by
  rcases List.mem_append.1 ht with ht | ht
  · split at ht
    · exact Or.inl (List.mem_singleton.1 ht)
    · simp at ht
  · split at ht
    · exact Or.inr (List.mem_singleton.1 ht)
    · simp at ht

/-- The term of a filter is a metatag. -/
theorem kind_of_mem_filterTerms {t : Term} (ht : t ∈ filterTerms viewer ts) : t.kind = .metatag := by
  rcases eq_of_mem_filterTerms ht with rfl | rfl <;> rfl

/-- The term of a filter contributes a condition alone. -/
theorem exists_effect_of_mem_filterTerms {t : Term} (ht : t ∈ filterTerms viewer ts) :
    ∃ p, t.effect .standard other now = .ok (.select p) := by
  rcases eq_of_mem_filterTerms ht with rfl | rfl
  · exact ⟨_, effect_safeTerm⟩
  · exact ⟨_, effect_undeletedTerm⟩

/-- What the condition of the filter on deleted posts says. -/
theorem conditionTruth_undeleted_iff {c : Contents} {p : Post} :
    conditionTruth c p undeletedCondition = some true ↔ p.isDeleted ≠ 1 := by
  by_cases hdeleted : p.isDeleted = 1 <;>
    simp [undeletedCondition, conditionTruth, truthOf, Truth.all, Truth.and, Truth.not, flagIs,
      flagValue, hdeleted]

/-- What the conditions of the filters say. -/
theorem filterTerms_conditions_iff {c : Contents} {p : Post} :
    (∀ t ∈ filterTerms viewer ts, ∀ k ∈ t.conditions .standard other now,
      conditionTruth c p k = some true) ↔
      (viewer.safeMode = true → p.rating = "s") ∧
      (viewer.hideDeleted = true → mentionsStatus ts = false → p.isDeleted ≠ 1) := by
  unfold filterTerms
  simp only [List.mem_append, or_imp, forall_and]
  refine and_congr ?_ ?_
  · cases viewer.safeMode <;> simp [conditions_safeTerm, safeCondition, conditionTruth_safe_iff]
  · cases viewer.hideDeleted <;> cases mentionsStatus ts <;>
      simp [conditions_undeletedTerm, conditionTruth_undeleted_iff]

/-- A post satisfies a query for a viewer if it does without filters and the filters leave it. -/
theorem satisfies_iff_withoutFilters {c : Contents} {p : Post} :
    Satisfies config resolve viewer now ts c p ↔
      Satisfies config resolve viewer.withoutFilters now ts c p ∧
      (viewer.safeMode = true → p.rating = "s") ∧
      (viewer.hideDeleted = true → (∀ t ∈ ts, t.showsDeleted = false) → p.isDeleted = 0) := by
  have hconditions (t : Term) : t.conditions config viewer.withoutFilters now =
      t.conditions config viewer now := Term.conditions_congr ⟨rfl, rfl⟩ t
  constructor
  · intro h
    refine ⟨⟨h.required, h.optional, h.negated, ?_, by simp [Viewer.withoutFilters],
      by simp [Viewer.withoutFilters]⟩, h.safe, h.shown⟩
    simpa only [hconditions] using h.metatags
  · rintro ⟨h, hsafe, hshown⟩
    refine ⟨h.required, h.optional, h.negated, ?_, hsafe, hshown⟩
    simpa only [hconditions] using h.metatags

/-- Terms that are no tags ask for their conditions only. -/
theorem satisfies_append_iff {us : List Term} {c : Contents} {p : Post}
    (hnotag : ∀ t ∈ us, t.isTag = false) :
    Satisfies config resolve other.withoutFilters now (ts ++ us) c p ↔
      Satisfies config resolve other.withoutFilters now ts c p ∧
      ∀ t ∈ us, ∀ k ∈ t.conditions config other.withoutFilters now,
        conditionTruth c p k = some true := by
  have htags (polarity : Polarity) (P : Term → Prop) :
      (∀ t ∈ ts ++ us, IsTagWith polarity t → P t) ↔ ∀ t ∈ ts, IsTagWith polarity t → P t := by
    constructor
    · exact fun h t ht => h t (List.mem_append_left us ht)
    · intro h t ht htag
      rcases List.mem_append.1 ht with ht | ht
      · exact h t ht htag
      · cases (hnotag t ht).symm.trans htag.1
  have honly (t : Term) : IsOnlyOptional resolve (ts ++ us) t ↔ IsOnlyOptional resolve ts t :=
    and_congr_right fun _ => htags _ _
  have hexists (P : Term → Prop) : (∃ t ∈ ts ++ us, IsOnlyOptional resolve ts t ∧ P t) ↔
      ∃ t ∈ ts, IsOnlyOptional resolve ts t ∧ P t := by
    constructor
    · rintro ⟨t, ht, htag, hP⟩
      rcases List.mem_append.1 ht with ht | ht
      · exact ⟨t, ht, htag, hP⟩
      · cases (hnotag t ht).symm.trans htag.1.1
    · rintro ⟨t, ht, h⟩
      exact ⟨t, List.mem_append_left us ht, h⟩
  have hsome : (∃ t ∈ ts ++ us, IsOnlyOptional resolve ts t) ↔
      ∃ t ∈ ts, IsOnlyOptional resolve ts t := by
    simpa using hexists fun _ => True
  constructor
  · intro h
    refine ⟨⟨(htags _ _).1 h.required, fun hthere => ?_, (htags _ _).1 h.negated, ?_,
      by simp [Viewer.withoutFilters], by simp [Viewer.withoutFilters]⟩, ?_⟩
    · have hfound := h.optional
      simp only [honly, hexists, hsome] at hfound
      exact hfound hthere
    · exact fun t ht => h.metatags t (List.mem_append_left us ht)
    · exact fun t ht => h.metatags t (List.mem_append_right ts ht)
  · rintro ⟨h, hconditions⟩
    refine ⟨(htags _ _).2 h.required, ?_, (htags _ _).2 h.negated, fun t ht => ?_,
      by simp [Viewer.withoutFilters], by simp [Viewer.withoutFilters]⟩
    · simp only [honly, hexists, hsome]
      exact h.optional
    · rcases List.mem_append.1 ht with ht | ht
      · exact h.metatags t ht
      · exact hconditions t ht

/-- A post satisfies a query with its filters if it satisfies the query and the filters leave it. -/
theorem satisfies_append_filterTerms_iff {c : Contents} {p : Post} :
    Satisfies .standard resolve other.withoutFilters now (ts ++ filterTerms viewer ts) c p ↔
      Satisfies .standard resolve other.withoutFilters now ts c p ∧
      (viewer.safeMode = true → p.rating = "s") ∧
      (viewer.hideDeleted = true → mentionsStatus ts = false → p.isDeleted ≠ 1) := by
  have hnotag : ∀ t ∈ filterTerms viewer ts, t.isTag = false := by
    intro t ht
    simp [Term.isTag, kind_of_mem_filterTerms ht]
  rw [satisfies_append_iff hnotag, filterTerms_conditions_iff]

/-- A term that contributes a condition alone can be added to every draft. -/
theorem exists_addTerms_eq_ok {us : List Term} (hus : ∀ t ∈ us, t.kind = .metatag ∧
    ∃ p, t.effect config viewer now = .ok (.select p)) :
    ∃ e, Draft.addTerms config resolve viewer now d us = .ok e := by
  induction us generalizing d with
  | nil => exact ⟨d, rfl⟩
  | cons t rest ih =>
    obtain ⟨hkind, p, heffect⟩ := hus t List.mem_cons_self
    have heffect' : (Registry.ofCategories config.categories).evaluate viewer now t.name
        (t.value.getD "") = .ok (.select p) := heffect
    have hadd : ∃ e, Draft.addTerm config resolve viewer now d t = .ok e := by
      simp [Draft.addTerm, hkind, heffect']
    obtain ⟨e, he⟩ := hadd
    obtain ⟨f, hf⟩ := ih (d := e) fun u hu => hus u (List.mem_cons_of_mem _ hu)
    exact ⟨f, by rw [Draft.addTerms, he]; exact hf⟩

/-- A term that contributes a condition alone leaves the order as it is. -/
theorem foldl_orderAfter_eq {us : List Term} {o : Option Order} (hus : ∀ t ∈ us, t.kind = .metatag ∧
    ∃ p, t.effect config viewer now = .ok (.select p)) :
    us.foldl (Term.orderAfter config viewer now) o = o := by
  induction us with
  | nil => rfl
  | cons t rest ih =>
    obtain ⟨hkind, p, heffect⟩ := hus t List.mem_cons_self
    have hfirst : t.orderAfter config viewer now o = o := by
      simp [Term.orderAfter, hkind, heffect, Effect.select]
    rw [List.foldl_cons, hfirst, ih fun u hu => hus u (List.mem_cons_of_mem _ hu)]

/-- Filters do not count toward the limit of tags. -/
theorem checkTagLimit_append {us : List Term} (hus : ∀ t ∈ us, t.kind = .metatag) :
    checkTagLimit .standard (ts ++ us) = checkTagLimit .standard ts := by
  have hnone : us.filter (countsTowardLimit .standard) = [] := by
    rw [List.filter_eq_nil_iff]
    intro t ht
    simp [countsTowardLimit, Term.isTag, hus t ht, Config.standard, Config.standardWith]
  rw [checkTagLimit, checkTagLimit, List.filter_append, hnone, List.append_nil]

/-- Whether a draft has the order and the conditions of another one, and besides conditions of
filters only. -/
structure Filtered (d e : Draft) : Prop where
  order : e.order = d.order
  conditions : ∃ ks, e.conditions = d.conditions ++ ks ∧
    ∀ k ∈ ks, k = safeCondition ∨ k = undeletedCondition

/-- A query with its filters fails to be planned as the query does, or its draft is that of the query
with the conditions of filters. -/
theorem draftOf_append_filterTerms (resolve : String → String) (viewer : Viewer) (now : Moment)
    (ts : List Term) :
    (∀ e, draftOf .standard resolve viewer now ts = .error e →
      draftOf .standard resolve viewer.withoutFilters now (ts ++ filterTerms viewer ts) = .error e) ∧
    ∀ d, draftOf .standard resolve viewer now ts = .ok d →
      ∃ e, draftOf .standard resolve viewer.withoutFilters now (ts ++ filterTerms viewer ts) = .ok e ∧
        Filtered d e := by
  -- A filter that repeats a term of the query adds nothing to it.
  obtain ⟨zs, hzs, hdistinct⟩ : ∃ zs, zs.Sublist (filterTerms viewer ts) ∧
      firstOfEach Term.key [] (ts ++ filterTerms viewer ts) = firstOfEach Term.key [] ts ++ zs :=
    exists_firstOfEach_append _ _ _
  have hcases : ∀ t ∈ zs, t.kind = .metatag ∧
      ∃ p, t.effect .standard viewer.withoutFilters now = .ok (.select p) := fun t ht =>
    ⟨kind_of_mem_filterTerms (hzs.mem ht), exists_effect_of_mem_filterTerms (hzs.mem ht)⟩
  have hviewer : draftOf .standard resolve viewer now ts =
      draftOf .standard resolve viewer.withoutFilters now ts := draftOf_congr ⟨rfl, rfl⟩
  rw [hviewer]
  unfold draftOf
  rw [hdistinct, checkTagLimit_append fun t ht => (hcases t ht).1, Draft.addTerms_append]
  cases checkTagLimit .standard (firstOfEach Term.key [] ts) with
  | error e => simp
  | ok _ =>
    cases Draft.addTerms .standard resolve viewer.withoutFilters now .empty
        (firstOfEach Term.key [] ts) with
    | error e => simp
    | ok d =>
      refine ⟨by simp, fun d' hd => ?_⟩
      obtain rfl := Except.ok.inj hd
      obtain ⟨e, he⟩ := exists_addTerms_eq_ok hcases
      have hextends := Draft.extends_addTerms he
      refine ⟨e, he, ?_, _, hextends.conditions, ?_⟩
      · rw [hextends.order, foldl_orderAfter_eq hcases]
      · intro k hk
        obtain ⟨t, ht, hk⟩ := List.mem_flatMap.1 hk
        rcases eq_of_mem_filterTerms (hzs.mem ht) with rfl | rfl
        · rw [conditions_safeTerm] at hk
          exact Or.inl (List.mem_singleton.1 hk)
        · rw [conditions_undeletedTerm] at hk
          exact Or.inr (List.mem_singleton.1 hk)

end Planning

end Imageboard.Search
