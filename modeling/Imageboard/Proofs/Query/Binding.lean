import Imageboard.Proofs.Query.Stating

/-!
# What statements bind

The statement of a plan that can be written binds, besides names and patterns, the values of its
conditions, of its order and of its page. Names and patterns can always be bound, so that what can be
bound is decided by the conditions, the order and the page.
-/

namespace Imageboard.Query

/-- A computation that succeeds on a list has succeeded on each item. -/
theorem map_eq_of_mapM_eq_ok {α β ε : Type} {f : α → Except ε β} {xs : List α} {ys : List β}
    (h : xs.mapM f = .ok ys) : xs.map f = ys.map .ok := by
  induction xs generalizing ys with
  | nil =>
    obtain rfl := Except.ok.inj h
    rfl
  | cons x rest ih =>
    rw [List.mapM_cons] at h
    cases hx : f x with
    | error e => simp [hx, bind, Except.bind] at h
    | ok y =>
      cases hrest : rest.mapM f with
      | error e => simp [hx, hrest, bind, Except.bind] at h
      | ok more =>
        simp only [hx, hrest, bind, Except.bind, pure, Except.pure, Except.ok.injEq] at h
        subst h
        rw [List.map_cons, hx, ih hrest, List.map_cons]

/-- Each result of a computation on a list is that of an item. -/
theorem exists_of_mem_mapM {α β ε : Type} {f : α → Except ε β} {xs : List α} {ys : List β} {y : β}
    (h : xs.mapM f = .ok ys) (hy : y ∈ ys) : ∃ x ∈ xs, f x = .ok y := by
  have hmem : (Except.ok y : Except ε β) ∈ ys.map .ok := List.mem_map_of_mem hy
  rw [← map_eq_of_mapM_eq_ok h] at hmem
  exact List.mem_map.1 hmem

/-- A computation that succeeds on each item does so on the list. -/
theorem exists_mapM_eq_ok {α β ε : Type} {f : α → Except ε β} {xs : List α}
    (h : ∀ x ∈ xs, ∃ y, f x = .ok y) : ∃ ys, xs.mapM f = .ok ys := by
  induction xs with
  | nil => exact ⟨[], rfl⟩
  | cons x rest ih =>
    obtain ⟨y, hy⟩ := h x List.mem_cons_self
    obtain ⟨ys, hys⟩ := ih fun z hz => h z (List.mem_cons_of_mem _ hz)
    exact ⟨y :: ys, by rw [List.mapM_cons, hy, hys]; rfl⟩

/-- The values that a piece binds, none if it cannot be written. -/
def boundValues (r : Except Failure Fragment) : List Value :=
  match r with
  | .ok f => f.params
  | .error _ => []

/-- The values that a condition binds. -/
def Condition.values (k : Condition) : List Value :=
  boundValues k.fragment

/-- The values that an order binds. -/
def Order.values (o : Order) : List Value :=
  boundValues o.fragment

/-- Taking pieces together binds what they bind. -/
theorem Fragment.params_all (fs : List Fragment) : (all fs).params = fs.flatMap (·.params) := by
  rcases fs with _ | ⟨f, _ | ⟨g, fs⟩⟩ <;> simp [all, combine, always, plain]

/-- Taking one of some pieces binds what they bind. -/
theorem Fragment.params_any (fs : List Fragment) : (any fs).params = fs.flatMap (·.params) := by
  rcases fs with _ | ⟨f, _ | ⟨g, fs⟩⟩ <;> simp [any, combine, never, plain]

/-- A tag filter binds a text. -/
theorem TagFilter.fits_params (f : TagFilter) : f.fragment.params.all Value.fits = true := by
  rfl

namespace Plan

variable {p : Plan}

/-- What a plan requires of a row can be bound exactly if its conditions can. -/
theorem fits_whereFragment {f : Fragment} (h : p.whereFragment = .ok f) :
    f.params.all Value.fits = true ↔ ∀ k ∈ p.conditions, k.values.all Value.fits = true := by
  unfold whereFragment at h
  split at h
  · contradiction
  next fs hfs =>
    obtain rfl := Except.ok.inj h
    -- Filters bind texts, which fit always, so that only the conditions are left.
    have hfilters (filters : List TagFilter) :
        ((filters.map TagFilter.fragment).flatMap (·.params)).all Value.fits = true := by
      simp only [List.all_flatMap, List.all_map, List.all_eq_true]
      exact fun f _ => by simpa using f.fits_params
    have hnegated :
        ((p.negated.map fun f => f.fragment.negate).flatMap (·.params)).all Value.fits = true := by
      simp only [List.all_flatMap, List.all_map, List.all_eq_true]
      exact fun f _ => by simpa [Fragment.negate] using f.fits_params
    have hoptional : ((if p.optional.isEmpty then []
        else [Fragment.any (p.optional.map TagFilter.fragment)]).flatMap
          (·.params)).all Value.fits = true := by
      split
      · rfl
      · simp only [List.flatMap_cons, List.flatMap_nil, List.append_nil, Fragment.params_any]
        exact hfilters _
    have hconditions : (fs.flatMap (·.params)).all Value.fits = true ↔
        ∀ k ∈ p.conditions, k.values.all Value.fits = true := by
      have hvalues : fs.flatMap (·.params) = p.conditions.flatMap Condition.values := by
        calc fs.flatMap (·.params)
          _ = (fs.map .ok).flatMap boundValues := by rw [List.flatMap_map]; rfl
          _ = (p.conditions.map Condition.fragment).flatMap boundValues := by
            rw [map_eq_of_mapM_eq_ok hfs]
          _ = p.conditions.flatMap Condition.values := by rw [List.flatMap_map]; rfl
      rw [hvalues, List.all_flatMap, List.all_eq_true]
    rw [Fragment.params_all]
    simp only [List.flatMap_append, List.all_append, hfilters, hnegated, hoptional, Bool.true_and,
      hconditions]

/-- A statement that counts can be bound exactly if what the plan draws from and its conditions can. -/
theorem fits_countStatement {f : Fragment} (h : p.countStatement = .ok f) :
    f.params.all Value.fits = true ↔ p.fromFragment.params.all Value.fits = true ∧
      ∀ k ∈ p.conditions, k.values.all Value.fits = true := by
  obtain ⟨wanted, hwanted, rfl⟩ := exists_of_map_eq_ok h
  rw [List.all_append, Bool.and_eq_true, fits_whereFragment hwanted]

/-- If a statement that selects can be bound, what the plan draws from and its conditions can. -/
theorem fits_of_selectStatement {limit : Option Int} {offset : Int} {f : Fragment}
    (h : p.selectStatement limit offset = .ok f) (hfits : f.params.all Value.fits = true) :
    p.fromFragment.params.all Value.fits = true ∧
      ∀ k ∈ p.conditions, k.values.all Value.fits = true := by
  unfold selectStatement at h
  split at h
  · cases h
  · cases h
  next wanted order hwanted horder =>
    obtain rfl := Except.ok.inj h
    simp only [List.all_append, Bool.and_eq_true] at hfits
    exact ⟨hfits.1.1.1, (fits_whereFragment hwanted).1 hfits.1.1.2⟩

/-- A statement that selects can be bound exactly if what the plan draws from, its conditions, its
order and the page can. -/
theorem fits_selectStatement {limit : Option Int} {offset : Int} {f : Fragment}
    (h : p.selectStatement limit offset = .ok f) :
    f.params.all Value.fits = true ↔ p.fromFragment.params.all Value.fits = true ∧
      (∀ k ∈ p.conditions, k.values.all Value.fits = true) ∧
      p.order.values.all Value.fits = true ∧
      (Value.integer (p.effectiveLimit limit)).fits = true ∧ (Value.integer offset).fits = true := by
  unfold selectStatement at h
  split at h
  · cases h
  · cases h
  next wanted order hwanted horder =>
    obtain rfl := Except.ok.inj h
    have hvalues : p.order.values = order.params := by rw [Order.values, horder, boundValues]
    simp only [List.all_append, Bool.and_eq_true, fits_whereFragment hwanted, hvalues, and_assoc,
      List.all_cons, List.all_nil, Bool.and_true]

/-- A plan whose conditions can be written requires something that can. -/
theorem Statable.exists_whereFragment (h : p.Statable) : ∃ f, p.whereFragment = .ok f := by
  obtain ⟨fs, hfs⟩ := exists_mapM_eq_ok h.conditions
  unfold whereFragment
  rw [hfs]
  exact ⟨_, rfl⟩

/-- A plan that can be written has a statement that selects. -/
theorem Statable.exists_selectStatement (h : p.Statable) (limit : Option Int) (offset : Int) :
    ∃ f, p.selectStatement limit offset = .ok f := by
  obtain ⟨wanted, hwanted⟩ := h.exists_whereFragment
  obtain ⟨order, horder⟩ := h.order
  exact ⟨_, by rw [selectStatement, hwanted, horder]⟩

/-- A plan that can be written has a statement that counts. -/
theorem Statable.exists_countStatement (h : p.Statable) : ∃ f, p.countStatement = .ok f := by
  obtain ⟨wanted, hwanted⟩ := h.exists_whereFragment
  exact ⟨_, by rw [countStatement, hwanted, Except.map]⟩

end Plan

end Imageboard.Query
