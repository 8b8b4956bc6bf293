import Imageboard.Search.CountCache
import Mathlib.Algebra.Ring.Int.Defs
import Mathlib.Algebra.Ring.Nat

/-!
# Deadlines that are exact

Remembered counts expire by a floating point clock. An integer of at most 53 bits is a floating point
number exactly; so are sums of two such numbers that stay within 53 bits, and they compare as the
integers do. Within these bounds, what is remembered has expired exactly if its seconds are over.
-/

namespace Imageboard

/-- A multiple divided is rounded to what it is a multiple of. -/
theorem roundDiv_mul (m : Nat) {den : Nat} (hden : 0 < den) : roundDiv (m * den) den = m := by
  rw [roundDiv, Nat.mul_mod_left, Nat.mul_div_cancel _ hden]
  exact if_pos (by simpa using hden)

namespace Binary64

variable {x y : Binary64} {a b : Int}

/-- A finite number is exactly an integer. -/
def IsExactly : Binary64 → Int → Prop
  | .finite s m e, n => (signedMagnitude s m e).1 = n * (signedMagnitude s m e).2
  | _, _ => False

/-- The denominator of a finite number is a power of two. -/
theorem exists_denominator_eq (negative : Bool) (mantissa : Nat) (exponent : Int) :
    ∃ j, (signedMagnitude negative mantissa exponent).2 = 2 ^ j := by
  unfold signedMagnitude magnitude scaled
  split
  · exact ⟨exponent.natAbs, by rw [Nat.one_shiftLeft]⟩
  · exact ⟨0, rfl⟩

/-- Zero is exactly zero. -/
theorem isExactly_zero (negative : Bool) : (zero negative).IsExactly 0 := by
  cases negative <;> simp [zero, IsExactly, signedMagnitude, magnitude, scaled, minExponent]

/-- A natural number of 53 bits times a power of two has that many bits more. -/
theorem log2_mul_two_pow {k : Nat} (hk : k ≠ 0) (j : Nat) : (k * 2 ^ j).log2 = k.log2 + j := by
  have hpos : k * 2 ^ j ≠ 0 := Nat.mul_ne_zero hk (Nat.pos_iff_ne_zero.1 (Nat.two_pow_pos j))
  rw [Nat.log2_eq_iff hpos]
  have hlower := Nat.log2_self_le hk
  have hupper := Nat.lt_log2_self (n := k)
  constructor
  · rw [Nat.pow_add]
    exact Nat.mul_le_mul_right _ hlower
  · rw [Nat.add_right_comm, Nat.pow_add]
    exact Nat.mul_lt_mul_of_pos_right hupper (Nat.two_pow_pos j)

/-- A natural number of 53 bits, scaled up to 53 bits, is exactly this number. -/
theorem isExactly_finite (negative : Bool) (k shift : Nat) :
    (finite negative (k * 2 ^ shift) (-(shift : Int))).IsExactly
      (if negative then -(k : Int) else k) := by
  have hmagnitude : magnitude (k * 2 ^ shift) (-(shift : Int)) = (k * 2 ^ shift, 2 ^ shift) := by
    rw [magnitude, scaled]
    by_cases hshift : shift = 0
    · subst hshift
      rfl
    · rw [if_pos (by omega), Int.natAbs_neg, Int.natAbs_natCast, Nat.one_shiftLeft]
  rw [IsExactly, signedMagnitude, hmagnitude]
  cases negative <;> simp

/-- A quotient by a power of two that is a natural number of 53 bits is this number exactly. -/
theorem isExactly_ofQuotient (negative : Bool) {k : Nat} (hk : k ≠ 0) (hbits : k < 2 ^ 53) (j : Nat) :
    (ofQuotient negative (k * 2 ^ j) (2 ^ j)).IsExactly (if negative then -(k : Int) else k) := by
  have hpos : k * 2 ^ j ≠ 0 := Nat.mul_ne_zero hk (Nat.pos_iff_ne_zero.1 (Nat.two_pow_pos j))
  obtain ⟨shift, hshift⟩ : ∃ shift, k.log2 + shift = 52 :=
    Nat.exists_eq_add_of_le (Nat.le_of_lt_succ ((Nat.log2_lt hk).2 hbits)) |>.imp fun _ h => h.symm
  -- Scaled up, the number has 53 bits, so nothing is lost by rounding.
  have hlower : leastFull ≤ k * 2 ^ shift := by
    calc leastFull = 2 ^ k.log2 * 2 ^ shift := by rw [← Nat.pow_add, hshift]; rfl
      _ ≤ k * 2 ^ shift := Nat.mul_le_mul_right _ (Nat.log2_self_le hk)
  have hupper : k * 2 ^ shift < 2 * leastFull := by
    calc k * 2 ^ shift < 2 ^ (k.log2 + 1) * 2 ^ shift :=
          Nat.mul_lt_mul_of_pos_right Nat.lt_log2_self (Nat.two_pow_pos _)
      _ = 2 * leastFull := by rw [← Nat.pow_add, Nat.add_right_comm, hshift]; rfl
  have hguess : ((k * 2 ^ j).log2 : Int) - ((2 ^ j).log2 : Int) - 52 = -(shift : Int) := by
    rw [log2_mul_two_pow hk, Nat.log2_two_pow]
    omega
  have hscaled : scaled (k * 2 ^ j) (2 ^ j) (- -(shift : Int)) = (k * 2 ^ shift * 2 ^ j, 2 ^ j) := by
    rw [scaled, if_neg (by omega), Int.neg_neg, Int.natAbs_natCast, Nat.shiftLeft_eq,
      Nat.mul_right_comm]
  have hfull : ¬ k * 2 ^ shift * 2 ^ j < leastFull * 2 ^ j :=
    Nat.not_lt.2 (Nat.mul_le_mul_right _ hlower)
  have hexponent : max minExponent (-(shift : Int)) = -(shift : Int) := by
    rw [minExponent]
    omega
  have hpack : ofQuotient negative (k * 2 ^ j) (2 ^ j) =
      finite negative (k * 2 ^ shift) (-(shift : Int)) := by
    rw [ofQuotient, if_neg hpos]
    dsimp only
    rw [hguess, hscaled, if_neg hfull, hexponent, hscaled, roundDiv_mul _ (Nat.two_pow_pos j), pack,
      if_neg (by have hleast : 0 < leastFull := by decide
                 omega)]
    have hcarried : ¬ k * 2 ^ shift = 2 * leastFull := Nat.ne_of_lt hupper
    simp only [hcarried, if_false]
    rw [if_neg (by rw [maxExponent]; omega)]
  rw [hpack]
  exact isExactly_finite negative k shift

/-- An integer of 53 bits is a floating point number exactly. -/
theorem isExactly_ofInt (h : a.natAbs < 2 ^ 53) : (ofInt a).IsExactly a := by
  by_cases hzero : a = 0
  · subst hzero
    exact isExactly_zero _
  · have hexact := isExactly_ofQuotient (decide (a < 0)) (Int.natAbs_ne_zero.2 hzero) h 0
    have hvalue : (if decide (a < 0) then -(a.natAbs : Int) else a.natAbs) = a := by
      by_cases hneg : a < 0
      · rw [if_pos (decide_eq_true hneg)]
        omega
      · rw [if_neg (by simpa using hneg)]
        omega
    rw [hvalue, Nat.pow_zero, Nat.mul_one] at hexact
    exact hexact

/-- The sum of two integers is exact if it has 53 bits. -/
theorem IsExactly.add (hx : x.IsExactly a) (hy : y.IsExactly b) (h : (a + b).natAbs < 2 ^ 53) :
    (x.add y).IsExactly (a + b) := by
  rcases x with _ | _ | ⟨s, m, e⟩
  · exact hx.elim
  · exact hx.elim
  rcases y with _ | _ | ⟨t, n, f⟩
  · exact hy.elim
  · exact hy.elim
  obtain ⟨i, hi⟩ := exists_denominator_eq s m e
  obtain ⟨j, hj⟩ := exists_denominator_eq t n f
  rw [IsExactly] at hx hy
  have hsum : (signedMagnitude s m e).1 * ((signedMagnitude t n f).2 : Int) +
      (signedMagnitude t n f).1 * ((signedMagnitude s m e).2 : Int) = (a + b) * 2 ^ (i + j) := by
    rw [hx, hy, hi, hj]
    push_cast
    rw [Int.pow_add, Int.add_mul, Int.mul_assoc, Int.mul_assoc, Int.mul_comm (2 ^ j)]
  rw [Binary64.add]
  rw [hsum]
  by_cases hzero : a + b = 0
  · rw [if_pos (by rw [hzero, Int.zero_mul]), hzero]
    exact isExactly_zero _
  · have hpos : (0 : Int) < 2 ^ (i + j) := Int.pow_pos (by decide)
    rw [if_neg (Int.mul_ne_zero hzero (Int.ne_of_gt hpos)), hi, hj, ← Nat.pow_add, Int.natAbs_mul,
      Int.natAbs_pow]
    have hexact := isExactly_ofQuotient (decide ((a + b) * 2 ^ (i + j) < 0))
      (Int.natAbs_ne_zero.2 hzero) h (i + j)
    have hsign : (a + b) * 2 ^ (i + j) < 0 ↔ a + b < 0 := by
      constructor
      · exact fun hneg => Int.not_le.1 fun hle =>
          Int.not_le.2 hneg (Int.mul_nonneg hle (Int.le_of_lt hpos))
      · exact fun hneg => Int.mul_neg_of_neg_of_pos hneg hpos
    have hvalue : (if decide ((a + b) * 2 ^ (i + j) < 0) then -((a + b).natAbs : Int)
        else (a + b).natAbs) = a + b := by
      by_cases hneg : a + b < 0
      · rw [if_pos (decide_eq_true (hsign.2 hneg))]
        omega
      · rw [if_neg (by simpa [hsign] using hneg)]
        omega
    rw [hvalue] at hexact
    exact hexact

/-- Integers compare as their multiples by a positive integer do. -/
theorem compare_mul_of_pos {d : Int} (hd : 0 < d) : compare (a * d) (b * d) = compare a b := by
  rcases Int.lt_trichotomy a b with hlt | rfl | hgt
  · rw [Int.compare_eq_lt.2 hlt, Int.compare_eq_lt.2 (Int.mul_lt_mul_of_pos_right hlt hd)]
  · rw [Int.compare_eq_eq.2 rfl, Int.compare_eq_eq.2 rfl]
  · rw [Int.compare_eq_gt.2 hgt, Int.compare_eq_gt.2 (Int.mul_lt_mul_of_pos_right hgt hd)]

/-- Numbers that are integers exactly compare as these do. -/
theorem IsExactly.compare? (hx : x.IsExactly a) (hy : y.IsExactly b) :
    x.compare? y = some (compare a b) := by
  rcases x with _ | _ | ⟨s, m, e⟩
  · exact hx.elim
  · exact hx.elim
  rcases y with _ | _ | ⟨t, n, f⟩
  · exact hy.elim
  · exact hy.elim
  obtain ⟨i, hi⟩ := exists_denominator_eq s m e
  obtain ⟨j, hj⟩ := exists_denominator_eq t n f
  rw [IsExactly] at hx hy
  have hpos : (0 : Int) < 2 ^ i * 2 ^ j :=
    Int.mul_pos (Int.pow_pos (by decide)) (Int.pow_pos (by decide))
  rw [Binary64.compare?]
  rw [hx, hy, hi, hj]
  push_cast
  rw [Int.mul_assoc, Int.mul_assoc, Int.mul_comm (2 ^ j), compare_mul_of_pos hpos]

end Binary64

/-- Within 53 bits, what is remembered has expired exactly if its seconds are over. -/
theorem Searcher.hasExpired_add {time now ttl : Int} (htime : time.natAbs < 2 ^ 53)
    (hnow : now.natAbs < 2 ^ 53) (httl : ttl.natAbs < 2 ^ 53) (hsum : (time + ttl).natAbs < 2 ^ 53) :
    hasExpired (.ofInt now) ((Binary64.ofInt time).add (.ofInt ttl)) = decide (time + ttl ≤ now) := by
  have hdeadline := (Binary64.isExactly_ofInt htime).add (Binary64.isExactly_ofInt httl) hsum
  rw [hasExpired, hdeadline.compare? (Binary64.isExactly_ofInt hnow)]
  rcases Int.lt_trichotomy (time + ttl) now with hlt | heq | hgt
  · rw [Int.compare_eq_lt.2 hlt, decide_eq_true (Int.le_of_lt hlt)]
  · rw [Int.compare_eq_eq.2 heq, decide_eq_true (Int.le_of_eq heq)]
  · rw [Int.compare_eq_gt.2 hgt, decide_eq_false (Int.not_le.2 hgt)]

end Imageboard
