import Imageboard.Proofs.Search.Distinguishing
import Imageboard.Proofs.Search.Measuring
import Mathlib.Data.List.Pairwise
import Mathlib.Data.Prod.Lex
import Mathlib.Data.Rat.Cast.Order

/-!
# Rows in order

Values stand in one line: nothing, then numbers by what they are worth, then texts. So the keys of an
order, which all have one direction, are compared as lists of places in that line, and putting rows in
order does so. Rows that no two of are equal in the order can be put in order in one way only.
-/

namespace Imageboard

/-- A place in the line of all values: the kind of value, then what a finite number is worth, then the
text. -/
abbrev Rank := ℕ ×ₗ ℚ ×ₗ String

namespace Rank

/-- The place of a kind of value, a worth and a text. -/
def of (kind : ℕ) (worth : ℚ) (text : String) : Rank :=
  toLex (kind, toLex (worth, text))

/-- Places are compared by the kind first, then by the worth, and then by the text. -/
theorem compare_of (k l : ℕ) (x y : ℚ) (s t : String) :
    compare (of k x s) (of l y t) = (compare k l).then ((compare x y).then (compare s t)) :=
  rfl

/-- Places of one kind compare as the worths do, if there is no text. -/
theorem compare_of_worth (k : ℕ) (x y : ℚ) : compare (of k x "") (of k y "") = compare x y := by
  rw [compare_of, compare_eq_iff_eq.2 (rfl : k = k), Ordering.eq_then]
  exact Ordering.then_eq

end Rank

/-- Integers compare as the fractions that they are. -/
theorem compare_cast (m n : ℤ) : compare (m : ℚ) n = compare m n := by
  rw [← cmp_eq_compare, ← cmp_eq_compare]
  exact Int.cast_strictMono.cmp_map_eq m n

/-- Quotients with positive denominators compare as they do without them. -/
theorem compare_quotients (a c : ℤ) {b d : ℕ} (hb : 0 < b) (hd : 0 < d) :
    compare (a * d) (c * b) = compare ((a : ℚ) / b) ((c : ℚ) / d) := by
  have hb' : (0 : ℚ) < b := by exact_mod_cast hb
  have hd' : (0 : ℚ) < d := by exact_mod_cast hd
  have ha : (a : ℚ) / b * (b * d) = (a * d : ℤ) := by
    rw [← mul_assoc, div_mul_cancel₀ _ hb'.ne', Int.cast_mul, Int.cast_natCast]
  have hc : (c : ℚ) / d * (b * d) = (c * b : ℤ) := by
    rw [mul_comm (b : ℚ), ← mul_assoc, div_mul_cancel₀ _ hd'.ne', Int.cast_mul, Int.cast_natCast]
  rw [← compare_cast, ← ha, ← hc, ← cmp_eq_compare, ← cmp_eq_compare]
  exact (strictMono_mul_right_of_pos (mul_pos hb' hd')).cmp_map_eq _ _

namespace Value

/-- What a finite floating point number is worth. -/
def worth (negative : Bool) (mantissa : Nat) (exponent : Int) : ℚ :=
  (Binary64.signedMagnitude negative mantissa exponent).1 /
    (Binary64.signedMagnitude negative mantissa exponent).2

/-- The place of a value; what is not a number is given that of nothing. -/
def rank : Value → Rank
  | .null | .real .nan => .of 0 0 ""
  | .real (.infinite true) => .of 1 0 ""
  | .integer n => .of 2 n ""
  | .real (.finite s m e) => .of 2 (worth s m e) ""
  | .real (.infinite false) => .of 3 0 ""
  | .text s => .of 4 0 s

/-- An integer compares with a finite number as their worths do. -/
theorem compare_worth (n : Int) (s : Bool) (m : Nat) (e : Int) :
    compare (n * (Binary64.signedMagnitude s m e).2) (Binary64.signedMagnitude s m e).1 =
      compare (n : ℚ) (worth s m e) := by
  simpa [worth] using
    compare_quotients n _ Nat.one_pos (Binary64.signedMagnitude_pos s m e)

/-- Two finite numbers compare as their worths do. -/
theorem compare_worth_worth (s t : Bool) (m n : Nat) (e f : Int) :
    compare ((Binary64.signedMagnitude s m e).1 * (Binary64.signedMagnitude t n f).2)
        ((Binary64.signedMagnitude t n f).1 * (Binary64.signedMagnitude s m e).2) =
      compare (worth s m e) (worth t n f) :=
  compare_quotients _ _ (Binary64.signedMagnitude_pos s m e) (Binary64.signedMagnitude_pos t n f)

/-- Values with places in the order are put in it by these places. -/
theorem order_eq_compare_rank {v w : Value} (hv : v.IsOrdered) (hw : w.IsOrdered) :
    v.order w = compare v.rank w.rank := by
  rcases v with _ | m | (_ | (_ | _) | ⟨s, k, e⟩) | a <;>
    rcases w with _ | n | (_ | (_ | _) | ⟨t, l, f⟩) | b
  -- Only finite numbers are more than their kind, or their text, in the order.
  any_goals first
    | exact absurd rfl hv
    | exact absurd rfl hw
    | rfl
  case integer.integer =>
    rw [rank, rank, Rank.compare_of_worth]
    exact (compare_cast m n).symm
  case integer.real.finite =>
    rw [rank, rank, Rank.compare_of_worth]
    exact compare_worth m t l f
  case real.finite.integer =>
    rw [rank, rank, Rank.compare_of_worth, Std.OrientedOrd.eq_swap, ← compare_worth]
    rfl
  case real.finite.real.finite =>
    rw [rank, rank, Rank.compare_of_worth]
    exact compare_worth_worth s t k l e f

end Value

namespace Search

open Query

variable {c c' : Contents} {o : Order}

/-! ## Keys -/

/-- How places compare in a direction. -/
def compareIn (d : Direction) (x y : Rank) : Ordering :=
  if d = .asc then compare x y else compare y x

/-- In either direction places are in line. -/
instance (d : Direction) : Std.TransCmp (compareIn d) := by
  cases d
  · exact inferInstanceAs (Std.TransCmp fun x y : Rank => compare x y)
  · exact inferInstanceAs (Std.TransCmp fun x y : Rank => compare y x)

/-- Whether some keys are as many as a number, all of one direction, and have places in the order. -/
structure AreKeys (d : Direction) (n : ℕ) (ks : List (Value × Direction)) : Prop where
  length : ks.length = n
  direction : ∀ k ∈ ks, k.2 = d
  ordered : ∀ k ∈ ks, k.1.IsOrdered

/-- The places of some keys. -/
def ranks (ks : List (Value × Direction)) : List Rank :=
  ks.map (·.1.rank)

/-- Keys of one direction are ordered as their places are, from the first on. -/
theorem orderKeys_eq_compareLex {d : Direction} {n : ℕ} {ks ls : List (Value × Direction)}
    (hks : AreKeys d n ks) (hls : AreKeys d n ls) :
    orderKeys ks ls = List.compareLex (compareIn d) (ranks ks) (ranks ls) := by
  induction ks generalizing n ls with
  | nil =>
    obtain rfl := List.length_eq_zero_iff.1 (hls.length.trans hks.length.symm)
    rfl
  | cons k ks ih =>
    obtain ⟨l, ls, rfl⟩ := List.exists_cons_of_length_eq_add_one (hls.length.trans hks.length.symm)
    obtain ⟨x, e⟩ := k
    obtain ⟨y, f⟩ := l
    obtain rfl : e = d := hks.direction _ List.mem_cons_self
    have hx : x.IsOrdered := hks.ordered _ List.mem_cons_self
    have hy : y.IsOrdered := hls.ordered _ List.mem_cons_self
    have hlength : (ls.length : ℕ) = ks.length :=
      Nat.succ.inj (hls.length.trans hks.length.symm)
    have hrest : orderKeys ks ls = List.compareLex (compareIn e) (ranks ks) (ranks ls) :=
      ih ⟨rfl, fun k hk => hks.direction k (List.mem_cons_of_mem _ hk),
          fun k hk => hks.ordered k (List.mem_cons_of_mem _ hk)⟩
        ⟨hlength, fun k hk => hls.direction k (List.mem_cons_of_mem _ hk),
          fun k hk => hls.ordered k (List.mem_cons_of_mem _ hk)⟩
    have hhead : (if e = .asc then x.order y else y.order x) = compareIn e x.rank y.rank := by
      rw [compareIn, Value.order_eq_compare_rank hx hy, Value.order_eq_compare_rank hy hx]
    change _ = List.compareLex (compareIn e) (x.rank :: ranks ks) (y.rank :: ranks ls)
    rw [orderKeys, hhead, hrest, List.compareLex_cons_cons]
    cases compareIn e x.rank y.rank <;> rfl

/-- An integer has a place in the order. -/
theorem isOrdered_integer (n : Int) : (Value.integer n).IsOrdered :=
  nofun

/-- An integer or nothing has a place in the order. -/
theorem isOrdered_ofInteger? (n : Option Int) : (Value.ofInteger? n).IsOrdered := by
  cases n <;> exact nofun

/-- An id has a place in the order by its place among some values. -/
theorem isOrdered_placeIn (id : Int) (vs : List Value) : (placeIn id vs).IsOrdered := by
  unfold placeIn
  split <;> exact nofun

/-- One value is one key. -/
theorem areKeys_one {v : Value} (d : Direction) (hv : v.IsOrdered) : AreKeys d 1 [(v, d)] where
  length := rfl
  direction := by simp
  ordered := by simpa using hv

/-- A value and an id are two keys. -/
theorem areKeys_two {v : Value} (d : Direction) (hv : v.IsOrdered) (id : Int) :
    AreKeys d 2 [(v, d), (.integer id, d)] where
  length := rfl
  direction := by simp
  ordered := by simpa using ⟨hv, isOrdered_integer id⟩

/-- In one order, the keys of all posts that can be stored are as many and of one direction. -/
theorem exists_areKeys (c : Contents) (o : Order) :
    ∃ d n, ∀ r : Row, r.post.Storable → AreKeys d n (sortKeys c o r) := by
  unfold sortKeys
  cases o.key with
  | random => exact ⟨.asc, 0, fun r hr => ⟨rfl, nofun, nofun⟩⟩
  | id => exact ⟨_, 1, fun r hr => areKeys_one _ (isOrdered_integer _)⟩
  | custom => exact ⟨_, 1, fun r hr => areKeys_one _ (isOrdered_placeIn _ _)⟩
  | ordpool => exact ⟨_, 1, fun r hr => areKeys_one _ (isOrdered_ofInteger? _)⟩
  | ordfav => exact ⟨_, 2, fun r hr => areKeys_two _ (isOrdered_ofInteger? _) _⟩
  | mpixels => exact ⟨_, 2, fun r hr => areKeys_two _ (isOrdered_mpixels hr) _⟩
  | ratio => exact ⟨_, 2, fun r hr => areKeys_two _ (isOrdered_ratio hr) _⟩
  | change =>
    exact ⟨_, 2, fun r hr => areKeys_two _ (hr r.post.updatedAt (by simp [Post.cells])).2 _⟩
  | _ => exact ⟨_, 2, fun r hr => areKeys_two _ (isOrdered_integer _) _⟩

/-! ## Sorting -/

/-- Whether a row may stand before another one. -/
def mayPrecede (c : Contents) (o : Order) (r r' : Row) : Bool :=
  orderKeys (sortKeys c o r) (sortKeys c o r') != .gt

/-- Putting rows in order with their keys is putting them in order by their keys. -/
theorem sortRows_eq_mergeSort (c : Contents) (o : Order) (rows : List Row) :
    sortRows c o rows = rows.mergeSort (mayPrecede c o) := by
  have hkeyed : (rows.mergeSort (mayPrecede c o)).map (fun r => (sortKeys c o r, r)) =
      (rows.map fun r => (sortKeys c o r, r)).mergeSort fun a b => orderKeys a.1 b.1 != .gt :=
    List.map_mergeSort fun _ _ _ _ => rfl
  rw [sortRows, ← hkeyed, List.map_map]
  exact List.map_id _

/-- A row may precede another one if the places of their keys come in this order. -/
theorem exists_mayPrecede_eq {rows : List Row} (c : Contents) (o : Order)
    (hrows : ∀ r ∈ rows, r.post.Storable) :
    ∃ d, ∀ r ∈ rows, ∀ r' ∈ rows,
      orderKeys (sortKeys c o r) (sortKeys c o r') =
        List.compareLex (compareIn d) (ranks (sortKeys c o r)) (ranks (sortKeys c o r')) ∧
      mayPrecede c o r r' =
        (List.compareLex (compareIn d) (ranks (sortKeys c o r)) (ranks (sortKeys c o r'))).isLE := by
  obtain ⟨d, n, hkeys⟩ := exists_areKeys c o
  refine ⟨d, fun r hr r' hr' => ?_⟩
  have horder := orderKeys_eq_compareLex (hkeys r (hrows r hr)) (hkeys r' (hrows r' hr'))
  refine ⟨horder, ?_⟩
  rw [mayPrecede, horder]
  cases List.compareLex _ _ _ <;> rfl

/-- Rows of posts that can be stored are put in order. -/
theorem pairwise_sortRows {rows : List Row} (hrows : ∀ r ∈ rows, r.post.Storable) :
    (sortRows c o rows).Pairwise fun r r' => mayPrecede c o r r' = true := by
  obtain ⟨d, horder⟩ := exists_mayPrecede_eq c o hrows
  have hranks : ((sortRows c o rows).map fun r => ranks (sortKeys c o r)).Pairwise fun x y =>
      (List.compareLex (compareIn d) x y).isLE = true := by
    rw [sortRows_eq_mergeSort,
      List.map_mergeSort (s := fun x y => (List.compareLex (compareIn d) x y).isLE)
        fun r hr r' hr' => (horder r hr r' hr').2]
    refine List.pairwise_mergeSort (fun _ _ _ => Std.TransCmp.isLE_trans) (fun x y => ?_) _
    have hswap : List.compareLex (compareIn d) y x = (List.compareLex (compareIn d) x y).swap :=
      Std.OrientedCmp.eq_swap
    rw [hswap]
    cases List.compareLex (compareIn d) x y <;> rfl
  refine (List.pairwise_map.1 hranks).imp_of_mem fun {r r'} hr hr' hle => ?_
  have hmem (r : Row) : r ∈ sortRows c o rows ↔ r ∈ rows := (sortRows_perm o rows).mem_iff
  rw [(horder r ((hmem r).1 hr) r' ((hmem r').1 hr')).2]
  exact hle

/-- Rows of which no two are equal in the order may precede each other only if they are the same. -/
theorem eq_of_mayPrecede {rows : List Row} (hrows : ∀ r ∈ rows, r.post.Storable)
    (hdistinct : rows.Pairwise fun r r' => orderKeys (sortKeys c o r) (sortKeys c o r') ≠ .eq)
    {r r' : Row} (hr : r ∈ rows) (hr' : r' ∈ rows) (hle : mayPrecede c o r r' = true)
    (hge : mayPrecede c o r' r = true) : r = r' := by
  obtain ⟨d, horder⟩ := exists_mayPrecede_eq c o hrows
  let unequal (r r' : Row) : Prop :=
    List.compareLex (compareIn d) (ranks (sortKeys c o r)) (ranks (sortKeys c o r')) ≠ .eq
  have hsymm : Std.Symm unequal := ⟨fun r r' hne heq => hne (Std.OrientedCmp.eq_comm.1 heq)⟩
  have hunequal : rows.Pairwise unequal := hdistinct.imp_of_mem fun {r r'} hr hr' hne => by
    rwa [(horder r hr r' hr').1] at hne
  by_contra hne
  rw [(horder r hr r' hr').2] at hle
  rw [(horder r' hr' r hr).2] at hge
  exact hunequal.forall hr hr' hne (Std.OrientedCmp.isLE_antisymm hle hge)

/-- Rows of which no two are equal in the order are put in order in one way. -/
theorem sortRows_eq_of_perm {rows rows' : List Row} (hperm : rows.Perm rows')
    (hrows : ∀ r ∈ rows, r.post.Storable) (hsame : ∀ r ∈ rows, sortKeys c' o r = sortKeys c o r)
    (hdistinct : rows.Pairwise fun r r' => orderKeys (sortKeys c o r) (sortKeys c o r') ≠ .eq) :
    sortRows c' o rows' = sortRows c o rows := by
  have hmem (r : Row) : r ∈ sortRows c o rows ↔ r ∈ rows := (sortRows_perm o rows).mem_iff
  have hmem' (r : Row) : r ∈ sortRows c' o rows' ↔ r ∈ rows :=
    (sortRows_perm o rows').mem_iff.trans hperm.mem_iff.symm
  have hsorted' : (sortRows c' o rows').Pairwise fun r r' => mayPrecede c o r r' = true := by
    refine (pairwise_sortRows fun r hr => hrows r (hperm.mem_iff.2 hr)).imp_of_mem
      fun {r r'} hr hr' hle => ?_
    rwa [mayPrecede, hsame r ((hmem' r).1 hr), hsame r' ((hmem' r').1 hr')] at hle
  exact List.Perm.eq_of_pairwise
    (fun r r' hr hr' => eq_of_mayPrecede hrows hdistinct ((hmem' r).1 hr) ((hmem r').1 hr'))
    hsorted' (pairwise_sortRows hrows)
    ((sortRows_perm o rows').trans (hperm.symm.trans (sortRows_perm o rows).symm))

end Search

end Imageboard
