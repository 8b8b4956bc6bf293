import Imageboard.Proofs.Query.Drafting

/-!
# Plans that can be written

Not every plan can be written as a statement: a pattern for the number of tags of a category has no
wording, and an order by that number needs the category. No metatag contributes the one and no order
is read as the other, so each plan that a query is compiled into can be written.
-/

namespace Imageboard.Query

/-! ## What metatags contribute -/

/-- Whether a predicate can be written. -/
def Predicate.Statable (p : Predicate) : Prop :=
  ∃ f, p.fragment = .ok f

/-- Whether a condition can be written. -/
def Condition.Statable (k : Condition) : Prop :=
  ∃ f, k.fragment = .ok f

/-- Whether an order can be written. -/
def Order.Statable (o : Order) : Prop :=
  ∃ f, o.fragment = .ok f

/-- Whether what a metatag contributes can be written. -/
structure Effect.Statable (e : Effect) : Prop where
  predicate : ∀ p ∈ e.predicate, p.Statable
  order : ∀ o ∈ e.order, o.Statable

/-- A range of any column can be written. -/
theorem Predicate.statable_range (column : Column) (r : Range) (category : Option Int) :
    (Predicate.range column r category).Statable := by
  unfold Statable
  rw [fragment]
  split <;> exact ⟨_, rfl⟩

/-- Flags can be written however they are taken together. -/
theorem Predicate.statable_flags (columns : List Flag) (value : Bool) (combine : Combine) :
    (Predicate.flags columns value combine).Statable := by
  cases combine <;> exact ⟨_, rfl⟩

/-- A condition can be written if its predicate can. -/
theorem Predicate.Statable.condition {p : Predicate} (h : p.Statable) (negated : Bool) :
    (Condition.mk p negated).Statable := by
  obtain ⟨f, hf⟩ := h
  exact ⟨_, by rw [Condition.fragment, hf, Except.map]⟩

/-- A predicate that can be written contributes what can be written. -/
theorem Effect.statable_select {p : Predicate} (h : p.Statable) : (Effect.select p).Statable := by
  constructor
  · intro q hq
    obtain rfl := Option.some.inj hq
    exact h
  · intro o ho
    cases ho

/-- An order beside a predicate changes nothing if it can be written. -/
theorem Effect.statable_selectAndOrder {p : Predicate} {o : Order} (hp : p.Statable)
    (ho : o.Statable) : (Effect.selectAndOrder p o).Statable := by
  constructor
  · intro q hq
    obtain rfl := Option.some.inj hq
    exact hp
  · intro q hq
    obtain rfl := Option.some.inj hq
    exact ho

/-- The predicate of a status can be written. -/
theorem statable_statusPredicate {status : String} {p : Option Predicate}
    (h : statusPredicate? status = some p) : ∀ q ∈ p, q.Statable := by
  unfold statusPredicate? at h
  split at h <;> cases h <;> intro q hq <;> cases hq <;> exact ⟨_, rfl⟩

/-- What a metatag contributes can be written. -/
theorem Handler.statable_of_apply {handler : Handler} {viewer : Viewer} {now : Moment}
    {value : String} {effect : Effect} (h : handler.apply viewer now value = .ok effect) :
    effect.Statable := by
  have hrelation (r : Relation) (v : Value) : (Effect.select (.relation r v)).Statable :=
    Effect.statable_select ⟨_, rfl⟩
  have hnever (reason : String) : (Effect.select (.never reason)).Statable :=
    Effect.statable_select ⟨_, rfl⟩
  have hrange (column : Column) (r : Range) (category : Option Int) :
      (Effect.select (.range column r category)).Statable :=
    Effect.statable_select (Predicate.statable_range _ _ _)
  cases handler with
  | quantity column kind category =>
    obtain ⟨r, -, rfl⟩ := exists_of_map_eq_ok h
    exact hrange _ _ _
  | age =>
    simp only [apply] at h
    split at h
    · cases h
    · obtain ⟨r, -, rfl⟩ := exists_of_map_eq_ok h
      exact hrange _ _ _
  | texts column initialOnly =>
    simp only [apply] at h
    split at h
    · cases h
    all_goals
      obtain rfl := Except.ok.inj h
      exact hrange _ _ _
  | source =>
    simp only [apply] at h
    split at h <;> obtain rfl := Except.ok.inj h
    · exact hrange _ _ _
    · exact Effect.statable_select ⟨_, rfl⟩
  | status =>
    simp only [apply] at h
    split at h <;> obtain rfl := Except.ok.inj h
    next p hp => exact ⟨statable_statusPredicate hp, by simp⟩
    next => exact hnever _
  | locked =>
    simp only [apply] at h
    split at h <;> obtain rfl := Except.ok.inj h
    · exact Effect.statable_select (Predicate.statable_flags _ _ _)
    · exact hnever _
  | parent =>
    simp only [apply] at h
    split at h
    · obtain rfl := Except.ok.inj h
      exact hrelation _ _
    · split at h
      · obtain rfl := Except.ok.inj h
        exact hrelation _ _
      · cases h
  | child =>
    simp only [apply] at h
    split at h
    · obtain rfl := Except.ok.inj h
      exact hrelation _ _
    · cases h
  | user relation anyOrNone =>
    simp only [apply] at h
    split at h
    · obtain rfl := Except.ok.inj h
      exact hrelation _ _
    · split at h <;> obtain rfl := Except.ok.inj h
      · exact hrelation _ _
      · exact hnever _
  | ordfav =>
    simp only [apply] at h
    split at h <;> obtain rfl := Except.ok.inj h
    · exact Effect.statable_selectAndOrder ⟨_, rfl⟩ ⟨_, rfl⟩
    · exact hnever _
  | pool =>
    simp only [apply] at h
    repeat' split at h
    all_goals
      obtain rfl := Except.ok.inj h
      exact hrelation _ _
  | ordpool =>
    simp only [apply] at h
    obtain rfl := Except.ok.inj h
    exact Effect.statable_selectAndOrder ⟨_, rfl⟩ ⟨_, rfl⟩
  | vote relation =>
    simp only [apply] at h
    split at h
    · split at h <;> obtain rfl := Except.ok.inj h
      · exact hrelation _ _
      · exact hnever _
    · obtain rfl := Except.ok.inj h
      exact hnever _
  | limit =>
    simp only [apply] at h
    split at h
    · split at h
      · cases h
      · obtain rfl := Except.ok.inj h
        exact ⟨by simp, by simp⟩
    · cases h

/-- A metatag of a board is a fixed one, or it counts the tags of a category. -/
theorem Registry.cases_of_find? {categories : Categories} {name : String} {handler : Handler}
    (h : (Registry.ofCategories categories).find? name = some handler) :
    (name, handler) ∈ Registry.fixed ∨
      ∃ category, handler = .quantity .categoryTagCount .integer category := by
  obtain ⟨⟨other, handler⟩, hfound, rfl⟩ := Option.map_eq_some_iff.1 h
  have hname : other = name := by simpa using List.find?_some hfound
  subst hname
  rcases List.mem_append.1 (List.mem_reverse.1 (List.mem_of_find?_eq_some hfound)) with hfixed | hcount
  · exact Or.inl hfixed
  · obtain ⟨c, -, heq⟩ := List.mem_map.1 hcount
    exact Or.inr ⟨some c.code, (congrArg Prod.snd heq).symm⟩

/-- No category takes over a metatag whose name does not end as those of categories do. -/
theorem Registry.find?_of_fixed {name : String} {handler : Handler}
    (h : Registry.find? Registry.fixed name = some handler) (hname : ¬ "tags".toList <:+ name.toList)
    (categories : Categories) : (Registry.ofCategories categories).find? name = some handler := by
  have hother (c : Category) : c.countMetatag ≠ name := by
    rintro rfl
    exact hname ⟨c.shortName.toList, String.toList_append.symm⟩
  have hnone : ((categories.toList.map fun c => (c.countMetatag,
      Handler.quantity .categoryTagCount .integer (some c.code))).reverse.find?
        fun m => m.1 = name) = none := by
    simp [hother]
  rw [Registry.find?, Registry.ofCategories, List.reverse_append, List.find?_append, hnone]
  exact h

/-- What a metatag term contributes can be written. -/
theorem Term.statable_effect {config : Config} {viewer : Viewer} {now : Moment} {t : Term}
    {effect : Effect} (h : t.effect config viewer now = .ok effect) : effect.Statable := by
  unfold Term.effect Registry.evaluate at h
  split at h
  · exact Handler.statable_of_apply h
  · contradiction

/-! ## Plans -/

section Plans

variable {config : Config} {resolve : String → String} {viewer : Viewer} {now : Moment}
  {ts : List Term} {d : Draft}

/-- The order that a value is read as can be written. -/
theorem Order.statable_ofText {categories : Categories} {value : String} {o : Order}
    (h : Order.ofText? categories value = some o) : o.Statable := by
  have hcolumn (key : String) (direction : Direction) (k : OrderKey)
      (hk : columnOrders.find? (·.name = key) = some k) : (Order.mk k direction []).Statable := by
    have hmem := List.mem_of_find?_eq_some hk
    simp only [columnOrders, List.mem_cons, List.not_mem_nil, or_false] at hmem
    rcases hmem with rfl | rfl | rfl | rfl | rfl | rfl <;> exact ⟨_, rfl⟩
  unfold Order.ofText? at h
  split at h
  case h_8 =>
    dsimp only at h
    split at h
    next k hk =>
      obtain rfl := Option.some.inj h
      exact hcolumn _ _ k hk
    next =>
      obtain ⟨c, -, rfl⟩ := Option.map_eq_some_iff.1 h
      exact ⟨_, rfl⟩
  all_goals
    obtain rfl := Option.some.inj h
    exact ⟨_, rfl⟩

/-- The conditions of a term can be written. -/
theorem Term.statable_conditions {t : Term} {k : Condition}
    (hk : k ∈ t.conditions config viewer now) : k.Statable := by
  unfold Term.conditions at hk
  split at hk
  · split at hk
    next effect heffect =>
      obtain ⟨p, hp, rfl⟩ := Option.map_eq_some_iff.1 (Option.mem_toList.1 hk)
      exact ((Term.statable_effect heffect).predicate p hp).condition _
    next => simp at hk
  · simp at hk

/-- What holds of the orders that values are read as and of those that metatags set holds of the order
after some terms, if it holds of the one before. -/
theorem forall_foldl_orderAfter {P : Order → Prop}
    (hread : ∀ value, ∀ p ∈ Order.ofText? config.categories value, P p)
    (hset : ∀ (t : Term) effect, t.effect config viewer now = .ok effect → ∀ p ∈ effect.order, P p)
    {o : Option Order} (ho : ∀ p ∈ o, P p) :
    ∀ p ∈ ts.foldl (Term.orderAfter config viewer now) o, P p := by
  have hstep (t : Term) {o : Option Order} (ho : ∀ p ∈ o, P p) :
      ∀ p ∈ t.orderAfter config viewer now o, P p := by
    intro p hp
    unfold Term.orderAfter at hp
    split at hp
    · exact hread _ p hp
    · split at hp
      next effect heffect =>
        split at hp
        · exact ho p hp
        · rcases Option.or_eq_some_iff.1 hp with hp | ⟨-, hp⟩
          · exact hset t effect heffect p hp
          · exact ho p hp
      next => exact ho p hp
    · exact ho p hp
  induction ts generalizing o with
  | nil => exact ho
  | cons t rest ih => exact ih (hstep t ho)

/-- Whether each condition and the order of a plan can be written. -/
structure Plan.Statable (p : Plan) : Prop where
  conditions : ∀ k ∈ p.conditions, k.Statable
  order : p.order.Statable

/-- The conditions that the filters of a viewer add can be written. -/
theorem Draft.statable_viewerConditions {showsDeleted : Bool} {k : Condition}
    (hk : k ∈ Draft.viewerConditions viewer showsDeleted) : k.Statable := by
  rcases Draft.cases_of_mem_viewerConditions hk with rfl | rfl
  · exact (Predicate.statable_range _ _ _).condition _
  · exact (Predicate.statable_flags _ _ _).condition _

/-- The order of a plan can be written if the one that it is taken from can. -/
theorem Draft.statable_finalOrder {o : Option Order} (ho : ∀ p ∈ o, p.Statable)
    (conditions : List Condition) : (Draft.finalOrder o conditions).Statable := by
  unfold Draft.finalOrder
  split
  · exact ⟨_, rfl⟩
  next o =>
    split
    · split <;> exact ⟨_, rfl⟩
    · exact ho o rfl

/-- A plan made of terms can be written. -/
theorem Draft.Extends.statable_finish (h : Draft.Extends config resolve viewer now .empty ts d)
    (query : String) : (d.finish viewer query).Statable := by
  constructor
  · intro k hk
    rcases List.mem_append.1 hk with hk | hk
    · rw [h.conditions, Draft.empty, List.nil_append, List.mem_flatMap] at hk
      obtain ⟨t, -, hk⟩ := hk
      exact Term.statable_conditions hk
    · exact Draft.statable_viewerConditions hk
  · have hnone : ∀ p ∈ Draft.empty.order, p.Statable := by
      intro p hp
      cases hp
    refine Draft.statable_finalOrder ?_ _
    rw [h.order]
    exact forall_foldl_orderAfter (fun _ _ => Order.statable_ofText)
      (fun _ _ heffect => (Term.statable_effect heffect).order) hnone

end Plans

end Imageboard.Query
