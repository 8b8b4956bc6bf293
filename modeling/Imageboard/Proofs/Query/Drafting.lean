import Imageboard.Proofs.Query.Distinct
import Imageboard.Query.Compile
import Imageboard.Query.Statement

/-!
# What a query contributes to its plan

The terms of a query are added to a draft one after the other. Here the draft is given in one piece:
which tag filters it has, which conditions in which order, what it is ordered by and whether it shows
deleted posts, as functions of the terms. Repeated terms add nothing, so the terms can be taken as they
stand in the query. Each plan can be written as a statement.
-/

namespace Imageboard.Query

open Text

/-! ## What terms contribute -/

/-- The tag filter of a tag or a pattern, under the name that a tag stands for. -/
def Term.filter (resolve : String → String) (t : Term) : TagFilter :=
  if t.kind = .wildcard then ⟨t.name, true⟩ else ⟨resolve t.name, false⟩

/-- What a metatag contributes. -/
def Term.effect (config : Config) (viewer : Viewer) (now : Moment) (t : Term) :
    Except Failure Effect :=
  (Registry.ofCategories config.categories).evaluate viewer now t.name (t.value.getD "")

/-- Whether a term asks for deleted posts. -/
def Term.showsDeleted (t : Term) : Bool :=
  t.kind = .metatag && t.name = "status" && Query.showsDeleted (lowerString (t.value.getD ""))

/-- The tag filters of the terms with a polarity. -/
def filtersOf (resolve : String → String) (polarity : Polarity) (ts : List Term) : List TagFilter :=
  (ts.filter fun t => t.isTag && t.polarity = polarity).map (·.filter resolve)

/-- The conditions of a term. -/
def Term.conditions (config : Config) (viewer : Viewer) (now : Moment) (t : Term) : List Condition :=
  if t.kind = .metatag then
    match t.effect config viewer now with
    | .ok effect => (effect.predicate.map fun p => ⟨p, t.polarity = .negated⟩).toList
    | .error _ => []
  else []

/-- The order after a term. -/
def Term.orderAfter (config : Config) (viewer : Viewer) (now : Moment) (o : Option Order) (t : Term) :
    Option Order :=
  match t.kind with
  | .order => Order.ofText? config.categories (t.value.getD "")
  | .metatag =>
    match t.effect config viewer now with
    | .ok effect => if t.polarity = .negated then o else effect.order.or o
    | .error _ => o
  | _ => o

namespace Draft

variable {config : Config} {resolve : String → String} {viewer : Viewer} {now : Moment}
  {d e : Draft} {ts : List Term}

/-- The tag filters of a draft with a polarity. -/
def filters (d : Draft) : Polarity → List TagFilter
  | .required => d.required
  | .negated => d.negated
  | .optional => d.optional

/-- A draft to which terms were added. -/
structure Extends (config : Config) (resolve : String → String) (viewer : Viewer) (now : Moment)
    (d : Draft) (ts : List Term) (e : Draft) : Prop where
  filters : ∀ polarity f,
    f ∈ e.filters polarity ↔ f ∈ d.filters polarity ∨ f ∈ filtersOf resolve polarity ts
  conditions : e.conditions = d.conditions ++ ts.flatMap (Term.conditions config viewer now)
  order : e.order = ts.foldl (Term.orderAfter config viewer now) d.order
  showsDeleted : e.showsDeleted = (d.showsDeleted || ts.any Term.showsDeleted)

/-- Adding an item adds it alone. -/
theorem mem_insertNew {α : Type} [BEq α] [LawfulBEq α] {xs : List α} {x y : α} :
    y ∈ insertNew xs x ↔ y ∈ xs ∨ y = x := by
  unfold insertNew
  split
  next hthere =>
    have hmem : x ∈ xs := by simpa using hthere
    constructor
    · exact Or.inl
    · rintro (h | rfl)
      · exact h
      · exact hmem
  next => simp

/-- Adding a filter adds it to those of its polarity. -/
theorem mem_addFilter {polarity other : Polarity} {f g : TagFilter} :
    g ∈ (d.addFilter polarity f).filters other ↔ g ∈ d.filters other ∨ polarity = other ∧ g = f := by
  cases polarity <;> cases other <;> simp [addFilter, filters, mem_insertNew]

/-- A tag or a pattern adds its filter. -/
theorem extends_addFilter {t : Term} (htag : t.isTag = true) :
    Extends config resolve viewer now d [t] (d.addFilter t.polarity (t.filter resolve)) := by
  have hkind : t.kind ≠ .metatag ∧ t.kind ≠ .order := by
    constructor <;>
      · intro hkind
        simp [Term.isTag, hkind] at htag
  have hfilters (polarity : Polarity) (g : TagFilter) :
      g ∈ filtersOf resolve polarity [t] ↔ t.polarity = polarity ∧ g = t.filter resolve := by
    by_cases hpolarity : t.polarity = polarity <;> simp [filtersOf, htag, hpolarity]
  have hkept : (d.addFilter t.polarity (t.filter resolve)).conditions = d.conditions ∧
      (d.addFilter t.polarity (t.filter resolve)).order = d.order ∧
      (d.addFilter t.polarity (t.filter resolve)).showsDeleted = d.showsDeleted := by
    unfold addFilter
    split <;> exact ⟨rfl, rfl, rfl⟩
  constructor
  · intro polarity f
    rw [hfilters]
    exact mem_addFilter
  · simp [hkept.1, Term.conditions, hkind.1]
  · rw [hkept.2.1, List.foldl_cons, List.foldl_nil, Term.orderAfter]
    split <;> simp_all
  · simp [hkept.2.2, Term.showsDeleted, hkind.1]

/-- A term that can be added adds what it contributes. -/
theorem extends_addTerm {t : Term} (h : addTerm config resolve viewer now d t = .ok e) :
    Extends config resolve viewer now d [t] e := by
  unfold addTerm at h
  cases hkind : t.kind with
  | tag =>
    have hfilter : t.filter resolve = ⟨resolve t.name, false⟩ := by
      simp [Term.filter, hkind]
    simp only [hkind] at h
    obtain rfl := Except.ok.inj h
    rw [← hfilter]
    exact extends_addFilter (by simp [Term.isTag, hkind])
  | wildcard =>
    have hfilter : t.filter resolve = ⟨t.name, true⟩ := by
      simp [Term.filter, hkind]
    simp only [hkind] at h
    obtain rfl := Except.ok.inj h
    rw [← hfilter]
    exact extends_addFilter (by simp [Term.isTag, hkind])
  | order =>
    simp only [hkind] at h
    obtain rfl := Except.ok.inj h
    constructor
    case filters =>
      intro polarity f
      cases polarity <;> simp [filters, filtersOf, Term.isTag, hkind]
    all_goals simp [Term.conditions, Term.orderAfter, Term.showsDeleted, hkind]
  | metatag =>
    simp only [hkind] at h
    split at h
    · contradiction
    next effect heffect =>
      obtain rfl := Except.ok.inj h
      have heffect' : t.effect config viewer now = .ok effect := heffect
      constructor
      case filters =>
        intro polarity f
        cases polarity <;> simp [filters, filtersOf, Term.isTag, hkind, addEffect]
      all_goals
        simp [Term.conditions, Term.orderAfter, Term.showsDeleted, hkind, heffect', addEffect]

/-- Adding terms and then more terms adds them all. -/
theorem Extends.trans {us : List Term} {b : Draft} (h : Extends config resolve viewer now b ts d)
    (h' : Extends config resolve viewer now d us e) :
    Extends config resolve viewer now b (ts ++ us) e := by
  constructor
  · intro polarity f
    simp [h'.filters, h.filters, filtersOf, or_assoc]
  · simp [h'.conditions, h.conditions]
  · simp [h'.order, h.order]
  · simp [h'.showsDeleted, h.showsDeleted, Bool.or_assoc]

/-- Terms that can be added add what they contribute. -/
theorem extends_addTerms (h : addTerms config resolve viewer now d ts = .ok e) :
    Extends config resolve viewer now d ts e := by
  induction ts generalizing d with
  | nil =>
    obtain rfl := Except.ok.inj h
    constructor <;> simp [filtersOf]
  | cons t rest ih =>
    rw [addTerms] at h
    split at h
    · contradiction
    next m hfirst => exact (extends_addTerm hfirst).trans (ih h)

end Draft

/-! ## Terms that stand in a query more than once -/

/-- Terms with one key differ in their tokens at most. -/
theorem Term.eq_of_key_eq {t u : Term} (h : t.key = u.key) : t = { u with raw := t.raw } := by
  cases t
  cases u
  simp_all [Term.key]

/-- What does not depend on the token is true of a term exactly if it is of a distinct one. -/
theorem exists_mem_distinct_iff {ts : List Term} {P : Term → Prop}
    (hraw : ∀ t raw, P t → P { t with raw := raw }) :
    (∃ t ∈ firstOfEach Term.key [] ts, P t) ↔ ∃ t ∈ ts, P t := by
  constructor
  · rintro ⟨t, ht, hP⟩
    exact ⟨t, (firstOfEach_sublist [] ts).mem ht, hP⟩
  · rintro ⟨t, ht, hP⟩
    obtain ⟨u, hu, hkey⟩ := exists_mem_firstOfEach ht (List.not_mem_nil (a := t.key))
    have hP' := hraw t u.raw hP
    rw [← Term.eq_of_key_eq hkey] at hP'
    exact ⟨u, hu, hP'⟩

/-- A filter is that of a term with its polarity. -/
theorem mem_filtersOf_iff {resolve : String → String} {polarity : Polarity} {ts : List Term}
    {f : TagFilter} :
    f ∈ filtersOf resolve polarity ts ↔
      ∃ t ∈ ts, (t.isTag = true ∧ t.polarity = polarity) ∧ t.filter resolve = f := by
  simp [filtersOf, and_assoc]

/-- The filters of a draft are those of the terms, however often these stand in the query. -/
theorem Draft.Extends.mem_filters_iff {config : Config} {resolve : String → String} {viewer : Viewer}
    {now : Moment} {ts : List Term} {d : Draft} {polarity : Polarity} {f : TagFilter}
    (h : Draft.Extends config resolve viewer now .empty (firstOfEach Term.key [] ts) d) :
    f ∈ d.filters polarity ↔
      ∃ t ∈ ts, (t.isTag = true ∧ t.polarity = polarity) ∧ t.filter resolve = f := by
  have hempty : f ∉ Draft.empty.filters polarity := by
    cases polarity <;> simp [Draft.filters, Draft.empty]
  rw [h.filters, or_iff_right hempty, mem_filtersOf_iff]
  exact exists_mem_distinct_iff fun _ _ h => h

/-- Repeated terms add no conditions. -/
theorem mem_conditions_distinct_iff {config : Config} {viewer : Viewer} {now : Moment}
    {ts : List Term} {k : Condition} :
    k ∈ (firstOfEach Term.key [] ts).flatMap (Term.conditions config viewer now) ↔
      ∃ t ∈ ts, k ∈ t.conditions config viewer now := by
  rw [List.mem_flatMap]
  exact exists_mem_distinct_iff fun _ _ h => h

/-- A query shows deleted posts if one of its terms asks for them. -/
theorem any_showsDeleted_distinct_iff {ts : List Term} :
    (firstOfEach Term.key [] ts).any Term.showsDeleted = true ↔ ∃ t ∈ ts, t.showsDeleted = true := by
  rw [List.any_eq_true]
  exact exists_mem_distinct_iff fun _ _ h => h

/-! ## The filters of a viewer -/

/-- The filters of a viewer ask for a rating, or for posts that are not marked as deleted. -/
theorem Draft.cases_of_mem_viewerConditions {viewer : Viewer} {showsDeleted : Bool} {k : Condition}
    (hk : k ∈ Draft.viewerConditions viewer showsDeleted) :
    k = ⟨.range .rating (.eq (.text "s")) none, false⟩ ∨
      k = ⟨.flags [.deleted] false .all, false⟩ := by
  unfold Draft.viewerConditions at hk
  rcases List.mem_append.1 hk with hk | hk
  · split at hk
    · exact Or.inl (List.mem_singleton.1 hk)
    · simp at hk
  · split at hk
    · exact Or.inr (List.mem_singleton.1 hk)
    · simp at hk

/-! ## Plans -/

/-- The terms of a query as they stand in it. -/
def readTerms (config : Config) (query : String) : Except Failure (List Term) :=
  (tokenize query).map (classify (Registry.ofCategories config.categories).names)

section Plans

variable {config : Config} {resolve : String → String} {viewer : Viewer} {clock : Moment}
  {query : String}

/-- The terms that are planned are those of the query, each for the first time. -/
theorem terms_eq_map_readTerms (config : Config) (query : String) :
    terms config query = (readTerms config query).map (firstOfEach Term.key []) := by
  unfold terms readTerms
  cases tokenize query <;> rfl

/-- The draft of the terms of a query, unless there are too many. -/
def draftOf (config : Config) (resolve : String → String) (viewer : Viewer) (now : Moment)
    (ts : List Term) : Except Failure Draft :=
  match checkTagLimit config (firstOfEach Term.key [] ts) with
  | .error e => .error e
  | .ok () => Draft.addTerms config resolve viewer now .empty (firstOfEach Term.key [] ts)

/-- A plan is the finished draft of the terms of its query. -/
theorem compile_of_readTerms {ts : List Term} (h : readTerms config query = .ok ts) :
    compile config resolve viewer clock query =
      (draftOf config resolve viewer (referenceMoment viewer clock) ts).map (·.finish viewer query) := by
  unfold compile checkedTerms draftOf
  rw [terms_eq_map_readTerms, h]
  simp only [Except.map]
  cases checkTagLimit config (firstOfEach Term.key [] ts) <;> rfl

/-- A query that cannot be read has no plan. -/
theorem compile_of_readTerms_error {e : Failure} (h : readTerms config query = .error e) :
    compile config resolve viewer clock query = .error e := by
  unfold compile checkedTerms
  rw [terms_eq_map_readTerms, h]
  rfl

/-- A draft has what its terms contribute. -/
theorem extends_of_draftOf {now : Moment} {ts : List Term} {d : Draft}
    (h : draftOf config resolve viewer now ts = .ok d) :
    Draft.Extends config resolve viewer now .empty (firstOfEach Term.key [] ts) d := by
  unfold draftOf at h
  split at h
  · cases h
  · exact Draft.extends_addTerms h

/-- A plan is made of the terms of its query. -/
theorem extends_of_compile {plan : Plan}
    (h : compile config resolve viewer clock query = .ok plan) :
    ∃ ts d, readTerms config query = .ok ts ∧
      draftOf config resolve viewer (referenceMoment viewer clock) ts = .ok d ∧
      plan = d.finish viewer query := by
  cases hread : readTerms config query with
  | error e => simp [compile_of_readTerms_error hread] at h
  | ok ts =>
    rw [compile_of_readTerms hread] at h
    cases hd : draftOf config resolve viewer (referenceMoment viewer clock) ts with
    | error e => simp [hd, Except.map] at h
    | ok d =>
      rw [hd] at h
      exact ⟨ts, d, rfl, hd, (Except.ok.inj h).symm⟩

/-! ## Queries of one term -/

/-- A single term is within each limit that allows one, and is all that is drafted. -/
theorem draftOf_singleton_eq_ok {now : Moment} {t : Term} {d : Draft} :
    draftOf config resolve viewer now [t] = .ok d ↔
      checkTagLimit config [t] = .ok () ∧
        Draft.addTerm config resolve viewer now .empty t = .ok d := by
  have hfirst : firstOfEach Term.key [] [t] = [t] := rfl
  unfold draftOf
  rw [hfirst]
  cases hcheck : checkTagLimit config [t] with
  | error e => simp
  | ok u =>
    rw [Draft.addTerms]
    cases hadd : Draft.addTerm config resolve viewer now .empty t with
    | error e => simp
    | ok d' => simp [Draft.addTerms]

/-- One term is not too many if one tag is allowed. -/
theorem checkTagLimit_singleton (hlimit : 1 ≤ config.tagQueryLimit) (t : Term) :
    checkTagLimit config [t] = .ok () := by
  have hlength : ([t].filter (countsTowardLimit config)).length ≤ 1 :=
    List.length_filter_le _ _
  rw [checkTagLimit, if_neg (by omega)]

/-- A query of one term that is within the limit has this term. -/
theorem checkedTerms_singleton {t : Term} (hread : readTerms config query = .ok [t])
    (hcheck : checkTagLimit config [t] = .ok ()) : checkedTerms config query = .ok [t] := by
  rw [checkedTerms, terms_eq_map_readTerms, hread]
  change (checkTagLimit config [t]).map _ = _
  rw [hcheck]
  rfl

end Plans

end Imageboard.Query
