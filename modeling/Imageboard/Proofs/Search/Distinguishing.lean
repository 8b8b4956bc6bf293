import Imageboard.Proofs.Query.Ordering
import Imageboard.Proofs.Search.Selecting

/-!
# Rows told apart by the order

No two rows that a plan selects are equal in its order, unless that is random. Most orders end with
the id of the post. A custom order puts an id at its first place in the list, and the rows that are
selected have ids of the list. The places of a pool have different numbers, and there is only one
pool of a name.
-/

namespace Imageboard

/-- The keys of the records are one among the records of their table, and so are the names of users
and pools up to the case of ASCII letters. -/
structure Contents.Keyed (c : Contents) : Prop where
  users : (c.users.map (·.id)).Nodup
  userNames : (c.users.map fun u => Text.foldAscii u.name).Nodup
  tags : (c.tags.map (·.id)).Nodup
  posts : (c.posts.map (·.id)).Nodup
  pools : (c.pools.map (·.id)).Nodup
  poolNames : (c.pools.map fun o => Text.foldAscii o.name).Nodup
  places : (c.poolPosts.map fun e => (e.poolId, e.position)).Nodup

/-- The denominator of a magnitude is positive. -/
theorem Binary64.signedMagnitude_pos (negative : Bool) (mantissa : Nat) (exponent : Int) :
    0 < (signedMagnitude negative mantissa exponent).2 := by
  unfold signedMagnitude magnitude scaled
  dsimp only
  split
  · rw [Nat.shiftLeft_eq, Nat.one_mul]
    exact Nat.two_pow_pos _
  · exact Nat.one_pos

/-- A value is equal to one integer at most. -/
theorem Value.eq_of_compare?_integer {v : Value} {m n : Int}
    (hm : compare? (.integer m) v = some .eq) (hn : compare? (.integer n) v = some .eq) : m = n := by
  cases v with
  | null => cases hm
  | text s => cases hm
  | integer k =>
    have hmk : compare m k = .eq := Option.some.inj hm
    have hnk : compare n k = .eq := Option.some.inj hn
    exact (compare_eq_iff_eq.1 hmk).trans (compare_eq_iff_eq.1 hnk).symm
  | real x =>
    cases x with
    | nan => cases hm
    | infinite negative => cases negative <;> cases hm
    | finite negative mantissa exponent =>
      have hpos := Binary64.signedMagnitude_pos negative mantissa exponent
      have hmx := compare_eq_iff_eq.1 (Option.some.inj hm)
      have hnx := compare_eq_iff_eq.1 (Option.some.inj hn)
      have hnonzero : ((Binary64.signedMagnitude negative mantissa exponent).2 : Int) ≠ 0 := by omega
      exact Int.eq_of_mul_eq_mul_right hnonzero (hmx.trans hnx.symm)

namespace Search

open Query

variable {c : Contents} {plan : Plan} {o : Order}

/-! ## Keys -/

/-- Two lists of keys are equal in order exactly if their heads and their rests are. -/
theorem orderKeys_cons_eq_iff {x y : Value} {d e : Direction} {ks ls : List (Value × Direction)} :
    orderKeys ((x, d) :: ks) ((y, e) :: ls) = .eq ↔
      (if d = .asc then x.order y else y.order x) = .eq ∧ orderKeys ks ls = .eq := by
  rw [orderKeys]
  split
  next heq => simp [heq]
  next hne => exact iff_of_false hne fun h => hne h.1

/-- Integers are equal in order, in either direction, only if they are the same. -/
theorem eq_of_order_integer {m n : Int} {d : Direction}
    (h : (if d = .asc then Value.order (.integer m) (.integer n)
      else Value.order (.integer n) (.integer m)) = .eq) : m = n := by
  split at h
  · exact compare_eq_iff_eq.1 h
  · exact (compare_eq_iff_eq.1 h).symm

/-- Keys that end with an id are equal in order only if the ids are the same. -/
theorem eq_of_orderKeys_pair {v w : Value} {d : Direction} {m n : Int}
    (h : orderKeys [(v, d), (.integer m, d)] [(w, d), (.integer n, d)] = .eq) : m = n :=
  eq_of_order_integer (orderKeys_cons_eq_iff.1 (orderKeys_cons_eq_iff.1 h).2).1

/-- In an order that is not random, custom or of a pool, rows are equal only if their posts have the
same id. -/
theorem id_eq_of_orderKeys {r r' : Row} (hrandom : o.key ≠ .random) (hcustom : o.key ≠ .custom)
    (hpool : o.key ≠ .ordpool) (h : orderKeys (sortKeys c o r) (sortKeys c o r') = .eq) :
    r.post.id = r'.post.id := by
  unfold sortKeys at h
  cases hkey : o.key with
  | random => exact absurd hkey hrandom
  | custom => exact absurd hkey hcustom
  | ordpool => exact absurd hkey hpool
  | id =>
    simp only [hkey] at h
    exact eq_of_order_integer (orderKeys_cons_eq_iff.1 h).1
  | _ =>
    simp only [hkey] at h
    exact eq_of_orderKeys_pair h

/-! ## Custom orders -/

/-- A post whose id is required to be one of some values has an id that is equal to one of them. -/
theorem exists_compare?_eq_of_among {p : Post} {ids : List Value} {category : Option Int}
    (h : conditionTruth c p ⟨.range .id (.among ids) category, false⟩ = some true) :
    ∃ v ∈ ids, Value.compare? (.integer p.id) v = some .eq := by
  have hamong : isAmong (.integer p.id) (ids.map Value.bound) = some true := h
  have hany : (Truth.any ((ids.map Value.bound).map
      (comparesAs [.eq] (.integer p.id)))).holds = true := by
    unfold isAmong at hamong
    split at hamong
    · cases hamong
    · rw [hamong]
      rfl
  rw [Truth.holds_any, List.any_map, List.any_map, List.any_eq_true] at hany
  obtain ⟨v, hv, htrue⟩ := hany
  refine ⟨v, hv, ?_⟩
  have hcompare : Value.compare? (.integer p.id) v.bound = some .eq := by
    simpa [Truth.holds, comparesAs] using htrue
  -- Only what is not a number is bound as something else, and nothing is equal to that.
  unfold Value.bound at hcompare
  split at hcompare
  · cases hcompare
  · exact hcompare

/-- An id that is equal to one of some values has the place of one that it is equal to. -/
theorem exists_placeIn_eq {id : Int} {vs : List Value}
    (h : ∃ v ∈ vs, Value.compare? (.integer id) v = some .eq) :
    ∃ i : Nat, placeIn id vs = .integer i ∧
      ∃ v, vs[i]? = some v ∧ Value.compare? (.integer id) v = some .eq := by
  obtain ⟨v, hv, hcompare⟩ := h
  unfold placeIn
  cases hfound : vs.findIdx? fun v => Value.compare? (.integer id) v == some .eq with
  | none =>
    rw [List.findIdx?_eq_none_iff] at hfound
    have hno := hfound v hv
    rw [hcompare] at hno
    cases hno
  | some i =>
    obtain ⟨hlt, hthere, -⟩ := List.findIdx?_eq_some_iff_getElem.1 hfound
    exact ⟨i, rfl, vs[i], List.getElem?_eq_getElem hlt, by simpa using hthere⟩

/-- Two ids that are equal to values of a list and have the same place in it are the same. -/
theorem id_eq_of_placeIn {m n : Int} {vs : List Value}
    (hm : ∃ v ∈ vs, Value.compare? (.integer m) v = some .eq)
    (hn : ∃ v ∈ vs, Value.compare? (.integer n) v = some .eq)
    (h : orderKeys [(placeIn m vs, .asc)] [(placeIn n vs, .asc)] = .eq) : m = n := by
  obtain ⟨i, hi, v, hv, hmv⟩ := exists_placeIn_eq hm
  obtain ⟨j, hj, w, hw, hnw⟩ := exists_placeIn_eq hn
  rw [hi, hj] at h
  have hplace : (i : Int) = j := eq_of_order_integer (orderKeys_cons_eq_iff.1 h).1
  obtain rfl := Int.natCast_inj.1 hplace
  obtain rfl := Option.some.inj (hv.symm.trans hw)
  exact Value.eq_of_compare?_integer hmv hnw

/-! ## Places of pools -/

/-- A place of a pool with a name is a place of some pool of that name. -/
theorem exists_of_mem_poolRows {name : String} {e : PoolPost} {r : Row}
    (h : (if c.pools.any fun o => o.id = e.poolId &&
        (textOf? (.text name)).any fun n => Text.foldAscii o.name = Text.foldAscii n then
        (c.findPost? e.postId).map (⟨·, some e.position⟩) else none) = some r) :
    r.place = some e.position ∧
      ∃ o ∈ c.pools, o.id = e.poolId ∧ Text.foldAscii o.name = Text.foldAscii name := by
  split at h
  next hpool =>
    obtain ⟨p, -, rfl⟩ := Option.map_eq_some_iff.1 h
    refine ⟨rfl, ?_⟩
    simpa [textOf?] using hpool
  next => cases h

/-- The places of the pools with a name have different numbers. -/
theorem pairwise_place_poolRows (hkeyed : c.Keyed) (name : String) :
    (poolRows c (.text name)).Pairwise fun r r' => r.place ≠ r'.place := by
  have hplaces : c.poolPosts.Pairwise fun e e' => (e.poolId, e.position) ≠ (e'.poolId, e'.position) :=
    List.pairwise_map.1 hkeyed.places
  refine List.Pairwise.filterMap _ (fun e e' hne r hr r' hr' hplace => ?_) hplaces
  obtain ⟨hr, o, ho, hid, hname⟩ := exists_of_mem_poolRows hr
  obtain ⟨hr', o', ho', hid', hname'⟩ := exists_of_mem_poolRows hr'
  have hsame : o = o' :=
    List.inj_on_of_nodup_map hkeyed.poolNames ho ho' (hname.trans hname'.symm)
  rw [hr, hr'] at hplace
  exact hne (Prod.ext (hid.symm.trans (hsame ▸ hid')) (Option.some.inj hplace))

/-! ## Selected rows -/

/-- A row that is selected satisfies the conditions of the plan. -/
theorem conditionTruth_of_mem_selectedRows {r : Row} (hr : r ∈ selectedRows c plan) {k : Condition}
    (hk : k ∈ plan.conditions) : conditionTruth c r.post k = some true :=
  (selects_iff.1 (List.mem_filter.1 hr).2).2.2.2 k hk

/-- No two rows that a plan selects are equal in its order, unless that is random. -/
theorem pairwise_orderKeys_ne_eq (hkeyed : c.Keyed) (hordered : plan.WellOrdered)
    (hrandom : plan.order.key ≠ .random) :
    (selectedRows c plan).Pairwise fun r r' =>
      orderKeys (sortKeys c plan.order r) (sortKeys c plan.order r') ≠ .eq := by
  by_cases hpool : plan.order.key = .ordpool
  · obtain ⟨name, hname⟩ := hordered.ordpool hpool
    have hrows : selectedRows c plan = (poolRows c (.text name)).filter fun r => selects c plan r.post := by
      rw [selectedRows, sourceRows, if_pos hpool, hname]
      rfl
    rw [hrows]
    refine ((pairwise_place_poolRows hkeyed name).imp_of_mem ?_).filter _
    intro r r' hr hr' hplace heq
    obtain ⟨e, -, he⟩ := List.mem_filterMap.1 hr
    obtain ⟨e', -, he'⟩ := List.mem_filterMap.1 hr'
    simp only [sortKeys, hpool, (exists_of_mem_poolRows he).1, (exists_of_mem_poolRows he').1,
      ne_eq] at heq hplace
    exact hplace (congrArg some (eq_of_order_integer (orderKeys_cons_eq_iff.1 heq).1))
  · have hids : (selectedRows c plan).Pairwise fun r r' => r.post.id ≠ r'.post.id := by
      rw [← List.pairwise_map (f := fun r : Row => r.post.id) (R := fun m n => m ≠ n),
        map_id_selectedRows hpool]
      exact hkeyed.posts.sublist (List.filter_sublist.map _)
    refine hids.imp_of_mem fun {r r'} hr hr' hne heq => hne ?_
    by_cases hcustom : plan.order.key = .custom
    · obtain ⟨category, hcondition⟩ := hordered.custom hcustom
      simp only [sortKeys, hcustom] at heq
      exact id_eq_of_placeIn
        (exists_compare?_eq_of_among (conditionTruth_of_mem_selectedRows hr hcondition))
        (exists_compare?_eq_of_among (conditionTruth_of_mem_selectedRows hr' hcondition)) heq
    · exact id_eq_of_orderKeys hrandom hcustom hpool heq

end Search

end Imageboard
