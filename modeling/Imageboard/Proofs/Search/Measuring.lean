import Imageboard.Search.Condition
import Mathlib.Algebra.Ring.Int.Defs
import Mathlib.Algebra.Ring.Nat

/-!
# Measures that are numbers

A quotient is rounded to a floating point number, never to what is not a number, and integers that a
column can hold are rounded to finite ones. So the size in megapixels and the ratio of a post, where
it has one, can be put in order.
-/

namespace Imageboard

namespace Binary64

/-- A rounded mantissa is put together to a number. -/
theorem pack_ne_nan (negative : Bool) (mantissa : Nat) (exponent : Int) :
    pack negative mantissa exponent ≠ .nan := by
  unfold pack
  dsimp only
  repeat' split
  all_goals exact nofun

/-- A quotient is rounded to a number. -/
theorem ofQuotient_ne_nan (negative : Bool) (num den : Nat) : ofQuotient negative num den ≠ .nan := by
  unfold ofQuotient
  dsimp only
  split
  · exact nofun
  · exact pack_ne_nan _ _ _

/-- A rounded mantissa with a small exponent is put together to a finite number. -/
theorem exists_pack_eq_finite (negative : Bool) (mantissa : Nat) {exponent : Int}
    (h : exponent < maxExponent) : ∃ s m e, pack negative mantissa exponent = .finite s m e := by
  unfold pack
  dsimp only
  split
  · exact ⟨_, _, _, rfl⟩
  · have hcarried : ¬ (if mantissa = 2 * leastFull then exponent + 1 else exponent) > maxExponent := by
      split <;> omega
    rw [if_neg hcarried]
    exact ⟨_, _, _, rfl⟩

/-- An integer that is not large is rounded to a finite number. -/
theorem exists_ofInt_eq_finite {n : Int} (h : n.natAbs < 2 ^ 64) :
    ∃ s m e, ofInt n = .finite s m e := by
  unfold ofInt ofQuotient
  dsimp only
  split
  · exact ⟨_, _, _, rfl⟩
  next hnonzero =>
    have hlog : n.natAbs.log2 < 64 := (Nat.log2_lt hnonzero).2 h
    have hone : Nat.log2 1 = 0 := by decide
    refine exists_pack_eq_finite _ _ ?_
    rw [hone, minExponent, maxExponent]
    split <;> omega

/-- A number times a finite one that is not zero is a number. -/
theorem mul_finite_ne_nan {x : Binary64} (hx : x ≠ .nan) {negative : Bool} {mantissa : Nat}
    {exponent : Int} (hmantissa : mantissa ≠ 0) : x.mul (.finite negative mantissa exponent) ≠ .nan := by
  cases x with
  | nan => exact absurd rfl hx
  | infinite s =>
    have hzero : (finite negative mantissa exponent).isZero = false := by
      cases mantissa with
      | zero => exact absurd rfl hmantissa
      | succ m => rfl
    simp [mul, hzero]
  | finite s m e => exact ofQuotient_ne_nan _ _ _

/-- A finite number by a finite one is a number. -/
theorem div_finite_ne_nan {x : Binary64} (hx : x ≠ .nan) (negative : Bool) (mantissa : Nat)
    (exponent : Int) : x.div (.finite negative mantissa exponent) ≠ .nan := by
  cases x with
  | nan => exact absurd rfl hx
  | infinite s => exact nofun
  | finite s m e => exact ofQuotient_ne_nan _ _ _

/-- Rounded to two places, a number stays one. -/
theorem roundHundredths_ne_nan (round : Nat → Nat → Nat) {x : Binary64} (hx : x ≠ .nan) :
    x.roundHundredths round ≠ .nan := by
  cases x with
  | nan => exact absurd rfl hx
  | infinite s => exact nofun
  | finite s m e => exact ofQuotient_ne_nan _ _ _

end Binary64

namespace Value

/-- Whether a value has a place in the order: only what is not a number has none. -/
def IsOrdered (v : Value) : Prop :=
  v ≠ .real .nan

/-- A statement accepts the integers of 64 bits. -/
theorem fits_integer {n : Int} : (integer n).fits = true ↔ -2 ^ 63 ≤ n ∧ n < 2 ^ 63 := by
  have hbounds : (integer n).fits = true ↔ integerBounds.1 ≤ n ∧ n < integerBounds.2 := by
    simp [fits]
  rw [hbounds, integerBounds]
  exact Iff.rfl

/-- An integer that a statement accepts is not large. -/
theorem natAbs_lt_of_fits {n : Int} (h : (integer n).fits = true) : n.natAbs < 2 ^ 64 := by
  have hbounds := fits_integer.1 h
  omega

/-- A statement accepts a natural number that is not large. -/
theorem fits_natCast {n : Nat} (h : n < 2 ^ 63) : (integer n).fits = true :=
  fits_integer.2 ⟨by omega, by omega⟩

end Value

/-- Whether the columns of posts can hold a post: they hold no integers that are too large, and
nothing for what is not a number. -/
def Post.Storable (p : Post) : Prop :=
  ∀ v ∈ p.cells, v.fits = true ∧ v.IsOrdered

namespace Search

variable {p : Post}

/-- The product of two integers that a statement accepts is a number. -/
theorem product_ne_nan {m n : Int} (hm : (Value.integer m).fits = true)
    (hn : (Value.integer n).fits = true) : product m n ≠ .nan := by
  unfold product
  split
  · exact Binary64.ofQuotient_ne_nan _ _ _
  · obtain ⟨s, k, e, hm⟩ := Binary64.exists_ofInt_eq_finite (Value.natAbs_lt_of_fits hm)
    obtain ⟨t, l, f, hn⟩ := Binary64.exists_ofInt_eq_finite (Value.natAbs_lt_of_fits hn)
    rw [hm, hn]
    exact Binary64.ofQuotient_ne_nan _ _ _

/-- The size of a post in megapixels has a place in the order. -/
theorem isOrdered_mpixels (h : p.Storable) : (mpixels p).IsOrdered := by
  have hwidth := (h (.integer p.imageWidth) (by simp [Post.cells])).1
  have hheight := (h (.integer p.imageHeight) (by simp [Post.cells])).1
  obtain ⟨s, m, e, hmillion⟩ := Binary64.exists_ofInt_eq_finite (n := 1000000) (by decide)
  intro hnan
  rw [mpixels, hmillion] at hnan
  exact Binary64.div_finite_ne_nan (product_ne_nan hwidth hheight) s m e (Value.real.inj hnan)

/-- The ratio of a post has a place in the order, also where there is none. -/
theorem isOrdered_ratio (h : p.Storable) : (ratio p).IsOrdered := by
  have hwidth := (h (.integer p.imageWidth) (by simp [Post.cells])).1
  have hheight := (h (.integer p.imageHeight) (by simp [Post.cells])).1
  obtain ⟨s, m, e, hw⟩ := Binary64.exists_ofInt_eq_finite (Value.natAbs_lt_of_fits hwidth)
  obtain ⟨t, n, f, hh⟩ := Binary64.exists_ofInt_eq_finite (Value.natAbs_lt_of_fits hheight)
  intro hnan
  rw [ratio] at hnan
  split at hnan
  · cases hnan
  · rw [hw, hh] at hnan
    have hnumber : Binary64.finite s m e ≠ .nan := nofun
    exact Binary64.roundHundredths_ne_nan _ (Binary64.div_finite_ne_nan hnumber t n f)
      (Value.real.inj hnan)

end Search

end Imageboard
