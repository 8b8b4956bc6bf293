import Imageboard.Proofs.Query.Binding
import Imageboard.Proofs.Query.Viewing
import Mathlib.Data.List.Induction

/-!
# The orders of plans

A plan is ordered by what the last word of its query on order says. Most orders are of posts alone.
Three depend on more: a custom order on a list of ids that is among the conditions, the order of a
user's favorites on the user, and the order of a pool, which only a metatag of its own brings in, on
the name of the pool.
-/

namespace Imageboard.Query

open Text

/-- A metatag contributes a limit alone, or nothing, or a predicate alone; or it is one of the two that
contribute an order, each one of its own. -/
theorem Handler.cases_of_apply {handler : Handler} {viewer : Viewer} {now : Moment} {value : String}
    {effect : Effect} (h : handler.apply viewer now value = .ok effect) :
    (∃ n, effect = ⟨none, none, n⟩) ∨ (∃ p, effect = .select p) ∨
      (handler = .ordfav ∧ ∃ name, effect =
        .selectAndOrder (.relation .fav (.text name)) ⟨.ordfav, .desc, [.text name]⟩) ∨
      (handler = .ordpool ∧ ∃ name, effect =
        .selectAndOrder (.relation .pool (.text name)) ⟨.ordpool, .asc, [.text name]⟩) := by
  cases handler with
  | ordpool =>
    simp only [apply] at h
    obtain rfl := Except.ok.inj h
    exact Or.inr (Or.inr (Or.inr ⟨rfl, _, rfl⟩))
  | ordfav =>
    simp only [apply] at h
    split at h <;> obtain rfl := Except.ok.inj h
    · exact Or.inr (Or.inr (Or.inl ⟨rfl, _, rfl⟩))
    · exact Or.inr (Or.inl ⟨_, rfl⟩)
  | status =>
    simp only [apply] at h
    split at h <;> obtain rfl := Except.ok.inj h
    next p hp =>
      cases p with
      | none => exact Or.inl ⟨_, rfl⟩
      | some p => exact Or.inr (Or.inl ⟨p, rfl⟩)
    next => exact Or.inr (Or.inl ⟨_, rfl⟩)
  | limit =>
    simp only [apply] at h
    repeat' split at h
    all_goals first
      | cases h; done
      | obtain rfl := Except.ok.inj h; exact Or.inl ⟨_, rfl⟩
  | quantity column kind category =>
    obtain ⟨r, -, rfl⟩ := exists_of_map_eq_ok h
    exact Or.inr (Or.inl ⟨_, rfl⟩)
  | age =>
    simp only [apply] at h
    split at h
    · cases h
    · obtain ⟨r, -, rfl⟩ := exists_of_map_eq_ok h
      exact Or.inr (Or.inl ⟨_, rfl⟩)
  | _ =>
    simp only [apply] at h
    repeat' split at h
    all_goals first
      | cases h; done
      | obtain rfl := Except.ok.inj h; exact Or.inr (Or.inl ⟨_, rfl⟩)

/-- Only two metatags set an order, each one of its own. -/
theorem Handler.order_of_apply {handler : Handler} {viewer : Viewer} {now : Moment} {value : String}
    {effect : Effect} {o : Order} (h : handler.apply viewer now value = .ok effect)
    (ho : effect.order = some o) :
    (handler = .ordfav ∧ ∃ name, o = ⟨.ordfav, .desc, [.text name]⟩) ∨
      (handler = .ordpool ∧ ∃ name, o = ⟨.ordpool, .asc, [.text name]⟩) := by
  rcases cases_of_apply h with ⟨n, rfl⟩ | ⟨p, rfl⟩ | ⟨hhandler, name, rfl⟩ | ⟨hhandler, name, rfl⟩
  · cases ho
  · cases ho
  · exact Or.inl ⟨hhandler, name, (Option.some.inj ho).symm⟩
  · exact Or.inr ⟨hhandler, name, (Option.some.inj ho).symm⟩

/-- The metatag that orders by a pool has one name. -/
theorem Registry.name_of_find?_ordpool {categories : Categories} {name : String}
    (h : (ofCategories categories).find? name = some .ordpool) : name = "ordpool" := by
  rcases cases_of_find? h with hfixed | ⟨_, hcount⟩
  · simpa [fixed] using hfixed
  · cases hcount

section Orders

variable {config : Config} {viewer : Viewer} {now : Moment}

/-- Whether a term orders by a pool. -/
def Term.IsOrdpool (t : Term) : Prop :=
  t.kind = .metatag ∧ lowerString t.name = "ordpool"

/-- A metatag term sets the order of a user's favorites or, if it is named so, that of a pool. -/
theorem Term.order_of_effect {t : Term} {effect : Effect} {o : Order}
    (h : t.effect config viewer now = .ok effect) (ho : effect.order = some o) :
    (∃ name, o = ⟨.ordfav, .desc, [.text name]⟩) ∨
      lowerString t.name = "ordpool" ∧ ∃ name, o = ⟨.ordpool, .asc, [.text name]⟩ := by
  unfold Term.effect Registry.evaluate at h
  split at h
  next handler hfound =>
    rcases Handler.order_of_apply h ho with ⟨-, hname⟩ | ⟨rfl, hname⟩
    · exact Or.inl hname
    · exact Or.inr ⟨Registry.name_of_find?_ordpool hfound, hname⟩
  next => cases h

/-- No order that a value is read as is that of a user's favorites or of a pool. -/
theorem Order.key_of_ofText? {categories : Categories} {value : String} {o : Order}
    (h : Order.ofText? categories value = some o) : o.key ≠ .ordfav ∧ o.key ≠ .ordpool := by
  have hcolumn (key : String) (k : OrderKey) (hk : columnOrders.find? (·.name = key) = some k) :
      k ≠ .ordfav ∧ k ≠ .ordpool := by
    have hmem := List.mem_of_find?_eq_some hk
    constructor <;>
      · rintro rfl
        simp [columnOrders] at hmem
  unfold Order.ofText? at h
  split at h
  case h_8 =>
    dsimp only at h
    split at h
    next k hk =>
      obtain rfl := Option.some.inj h
      exact hcolumn _ k hk
    next =>
      obtain ⟨c, -, rfl⟩ := Option.map_eq_some_iff.1 h
      simp
  all_goals
    obtain rfl := Option.some.inj h
    simp

/-- What is known of the order that some terms say: if it is that of a pool, one of them says so, and
the name of the pool is a text. -/
theorem ordpool_of_foldl_orderAfter {ts : List Term} {o : Option Order} {p : Order}
    (ho : ∀ q ∈ o, q.key ≠ .ordpool)
    (hp : ts.foldl (Term.orderAfter config viewer now) o = some p) (hkey : p.key = .ordpool) :
    (∃ t ∈ ts, t.IsOrdpool) ∧ ∃ name, p.params = [.text name] := by
  -- The last term that says something of order decides, so the list is taken from its end.
  induction ts using List.reverseRecOn generalizing p with
  | nil => exact absurd hkey (ho p hp)
  | append_singleton ts t ih =>
    rw [List.foldl_append, List.foldl_cons, List.foldl_nil] at hp
    have hbefore (h : ts.foldl (Term.orderAfter config viewer now) o = some p) :
        (∃ u ∈ ts ++ [t], u.IsOrdpool) ∧ ∃ name, p.params = [.text name] := by
      obtain ⟨⟨u, hu, hpool⟩, hname⟩ := ih h hkey
      exact ⟨⟨u, List.mem_append_left _ hu, hpool⟩, hname⟩
    unfold Term.orderAfter at hp
    split at hp
    next => exact absurd hkey ((Order.key_of_ofText? hp).2)
    next hkind =>
      split at hp
      next effect heffect =>
        split at hp
        · exact hbefore hp
        · rcases Option.or_eq_some_iff.1 hp with hset | ⟨-, hset⟩
          · rcases Term.order_of_effect heffect hset with ⟨name, rfl⟩ | ⟨hname, name, rfl⟩
            · cases hkey
            · exact ⟨⟨t, List.mem_append_right _ (List.mem_singleton.2 rfl), hkind, hname⟩, name, rfl⟩
          · exact hbefore hset
      next => exact hbefore hp
    next => exact hbefore hp

/-- What is known of the order of a plan: a custom one takes a list of ids that is among the
conditions, and that of a pool takes the name of the pool. -/
structure Plan.WellOrdered (p : Plan) : Prop where
  custom : p.order.key = .custom →
    ∃ category, ⟨.range .id (.among p.order.params) category, false⟩ ∈ p.conditions
  ordpool : p.order.key = .ordpool → ∃ name, p.order.params = [.text name]

/-- Where the order is finished, a custom one takes a list of ids, and any other one is the order that
the terms say, or else the standard one. -/
theorem Draft.finalOrder_cases (o : Option Order) (conditions : List Condition) :
    (∃ ids category, Draft.finalOrder o conditions = ⟨.custom, .asc, ids⟩ ∧
      ⟨.range .id (.among ids) category, false⟩ ∈ conditions) ∨
    Draft.finalOrder o conditions = .standard ∨
    o = some (Draft.finalOrder o conditions) ∧ (Draft.finalOrder o conditions).key ≠ .custom := by
  unfold Draft.finalOrder
  cases o with
  | none => exact Or.inr (Or.inl rfl)
  | some o =>
    dsimp only
    split
    · split
      next ids hids =>
        obtain ⟨k, hk, hlist⟩ := List.exists_of_findSome?_eq_some hids
        unfold Draft.idList? at hlist
        split at hlist
        next ids' category =>
          obtain rfl := Option.some.inj hlist
          exact Or.inl ⟨_, category, rfl, List.mem_reverse.1 hk⟩
        next => cases hlist
      next => exact Or.inr (Or.inl rfl)
    next hnot => exact Or.inr (Or.inr ⟨rfl, hnot⟩)

variable {resolve : String → String} {ts : List Term} {d : Draft}

/-- If a plan is ordered by a pool, one of the terms of its query says so, and the name of the pool is
a text. -/
theorem Draft.Extends.ordpool_finish (h : Draft.Extends config resolve viewer now .empty ts d)
    {query : String} (hkey : (d.finish viewer query).order.key = .ordpool) :
    (∃ t ∈ ts, t.IsOrdpool) ∧ ∃ name, (d.finish viewer query).order.params = [.text name] := by
  rcases Draft.finalOrder_cases d.order (d.finish viewer query).conditions with
    ⟨ids, category, heq, -⟩ | heq | ⟨heq, -⟩
  · have hcustom : (d.finish viewer query).order.key = .custom := congrArg Order.key heq
    rw [hcustom] at hkey
    cases hkey
  · have hstandard : (d.finish viewer query).order.key = .id := congrArg Order.key heq
    rw [hstandard] at hkey
    cases hkey
  · have hnone : ∀ q ∈ Draft.empty.order, q.key ≠ .ordpool := fun q hq => nomatch hq
    exact ordpool_of_foldl_orderAfter hnone (h.order.symm.trans heq) hkey

/-- The order of a plan made of terms is as known. -/
theorem Draft.Extends.wellOrdered_finish (h : Draft.Extends config resolve viewer now .empty ts d)
    (query : String) : (d.finish viewer query).WellOrdered where
  custom hkey := by
    rcases Draft.finalOrder_cases d.order (d.finish viewer query).conditions with
      ⟨ids, category, heq, hmem⟩ | heq | ⟨-, hnot⟩
    · refine ⟨category, ?_⟩
      rwa [show (d.finish viewer query).order.params = ids from congrArg Order.params heq]
    · have hstandard : (d.finish viewer query).order.key = .id := congrArg Order.key heq
      rw [hstandard] at hkey
      cases hkey
    · exact absurd hkey hnot
  ordpool hkey := (h.ordpool_finish hkey).2

end Orders

end Imageboard.Query
