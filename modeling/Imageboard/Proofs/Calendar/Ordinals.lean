import Imageboard.Calendar.Day
import Mathlib.Algebra.Ring.Nat
import Mathlib.Order.Monotone.Basic

/-!
# The order of days

Splitting the number of a day by cycles, centuries, leap years and single years finds the year whose days
include it, and then the month is found among those of that year. So days with larger numbers come later
in the calendar: their years are later, or in the same year their months are, or in the same month their
days.
-/

namespace Imageboard.Day

/-- The year of a day and how many days of the year come before it. -/
def yearAndRest (n : Nat) : Nat × Nat :=
  let cycles := n / 146097
  let inCycle := n % 146097
  let centuries := min 3 (inCycle / 36524)
  let inCentury := inCycle - 36524 * centuries
  let quads := inCentury / 1461
  let inQuad := inCentury % 1461
  let singles := min 3 (inQuad / 365)
  (400 * cycles + 100 * centuries + 4 * quads + singles + 1, inQuad - 365 * singles)

/-- A day is found by its year, and then by its month among those of the year. -/
theorem ofOrdinal_eq (n : Nat) : ofOrdinal n =
    ⟨(yearAndRest n).1,
      (monthOf 1 (monthLengths (isLeap (yearAndRest n).1)) (yearAndRest n).2).1,
      (monthOf 1 (monthLengths (isLeap (yearAndRest n).1)) (yearAndRest n).2).2 + 1⟩ := rfl

/-! ## Years -/

/-- The days before a year that is counted in cycles, centuries, leap years and single years. -/
theorem daysBeforeYear_of_cycles {cycles centuries quads singles : Nat} (hcenturies : centuries ≤ 3)
    (hquads : quads ≤ 24) (hsingles : singles ≤ 3) :
    daysBeforeYear (400 * cycles + 100 * centuries + 4 * quads + singles + 1) =
      146097 * cycles + 36524 * centuries + 1461 * quads + 365 * singles := by
  unfold daysBeforeYear
  dsimp only
  omega

/-- A later year has more days before it, by 365 at least. -/
theorem daysBeforeYear_succ {year : Nat} (hyear : 1 ≤ year) :
    daysBeforeYear year + 365 ≤ daysBeforeYear (year + 1) := by
  unfold daysBeforeYear
  dsimp only
  omega

/-- The number of days before a year grows with the year. -/
theorem daysBeforeYear_mono : Monotone daysBeforeYear := by
  refine monotone_nat_of_le_succ fun year => ?_
  rcases Nat.eq_zero_or_pos year with rfl | hyear
  · decide
  · have hstep := daysBeforeYear_succ hyear
    omega

/-- A year counted in cycles, centuries, leap years and single years has 365 days, and one more if it is
the last of four, unless it is also the last of a century that is not the last of a cycle. -/
theorem lt_daysBeforeYear_of_cycles (cycles : Nat) {centuries quads singles rest : Nat}
    (hcenturies : centuries ≤ 3) (hquads : quads ≤ 24) (hsingles : singles ≤ 3) (hrest : rest ≤ 365)
    (hcommon : singles < 3 ∨ quads = 24 ∧ centuries < 3 → rest < 365) :
    146097 * cycles + 36524 * centuries + 1461 * quads + 365 * singles + rest <
      daysBeforeYear (400 * cycles + 100 * centuries + 4 * quads + singles + 1 + 1) := by
  unfold daysBeforeYear
  dsimp only
  omega

/-- The year that is found for a day is the one that the day is in. -/
theorem yearAndRest_spec (n : Nat) :
    daysBeforeYear (yearAndRest n).1 + (yearAndRest n).2 = n ∧ (yearAndRest n).2 ≤ 365 ∧
      n < daysBeforeYear ((yearAndRest n).1 + 1) := by
  let inCycle := n % 146097
  let centuries := min 3 (inCycle / 36524)
  let inCentury := inCycle - 36524 * centuries
  let quads := inCentury / 1461
  let inQuad := inCentury % 1461
  let singles := min 3 (inQuad / 365)
  have hcycle : n = 146097 * (n / 146097) + inCycle ∧ inCycle < 146097 := by omega
  have hcentury : inCycle = 36524 * centuries + inCentury ∧ inCentury ≤ 36524 ∧
      (centuries < 3 → inCentury < 36524) := by omega
  have hquad : inCentury = 1461 * quads + inQuad ∧ inQuad < 1461 := by omega
  have hquads : quads ≤ 24 := by omega
  have hsingle : inQuad = 365 * singles + (inQuad - 365 * singles) ∧ inQuad - 365 * singles ≤ 365 ∧
      (singles < 3 → inQuad - 365 * singles < 365) := by omega
  have hcenturies : centuries ≤ 3 := Nat.min_le_left _ _
  have hsingles : singles ≤ 3 := Nat.min_le_left _ _
  change daysBeforeYear (400 * (n / 146097) + 100 * centuries + 4 * quads + singles + 1) +
      (inQuad - 365 * singles) = n ∧ inQuad - 365 * singles ≤ 365 ∧
    n < daysBeforeYear (400 * (n / 146097) + 100 * centuries + 4 * quads + singles + 1 + 1)
  have hlast := lt_daysBeforeYear_of_cycles (n / 146097) hcenturies hquads hsingles hsingle.2.1
    (by omega)
  refine ⟨?_, hsingle.2.1, by omega⟩
  rw [daysBeforeYear_of_cycles hcenturies hquads hsingles]
  omega

/-- A year has begun by a day exactly if it is not after the year of the day. -/
theorem daysBeforeYear_le_iff {year n : Nat} : daysBeforeYear year ≤ n ↔ year ≤ (ofOrdinal n).year := by
  obtain ⟨hday, -, hnext⟩ := yearAndRest_spec n
  change _ ↔ year ≤ (yearAndRest n).1
  constructor
  · intro hbegun
    by_contra hafter
    have hmono : daysBeforeYear ((yearAndRest n).1 + 1) ≤ daysBeforeYear year :=
      daysBeforeYear_mono (by omega)
    omega
  · intro hyear
    have hmono : daysBeforeYear year ≤ daysBeforeYear (yearAndRest n).1 := daysBeforeYear_mono hyear
    omega

/-! ## Months -/

/-- The month that is found is not before the first one that is searched. -/
theorem le_monthOf (month : Nat) (lengths : List Nat) (n : Nat) : month ≤ (monthOf month lengths n).1 := by
  induction lengths generalizing month n with
  | nil => exact Nat.le_refl month
  | cons length more ih =>
    rw [monthOf]
    split
    · exact Nat.le_refl month
    · exact Nat.le_of_succ_le (ih (month + 1) (n - length))

/-- A later day of a year is in a later month, or later in the same month. -/
theorem monthOf_lt {m n : Nat} (h : m < n) (month : Nat) (lengths : List Nat) :
    (monthOf month lengths m).1 < (monthOf month lengths n).1 ∨
      (monthOf month lengths m).1 = (monthOf month lengths n).1 ∧
        (monthOf month lengths m).2 < (monthOf month lengths n).2 := by
  induction lengths generalizing month m n with
  | nil => exact Or.inr ⟨rfl, h⟩
  | cons length more ih =>
    rw [monthOf, monthOf]
    by_cases hm : m < length
    · rw [if_pos hm]
      by_cases hn : n < length
      · rw [if_pos hn]
        exact Or.inr ⟨rfl, h⟩
      · rw [if_neg hn]
        exact Or.inl (le_monthOf (month + 1) more (n - length))
    · rw [if_neg hm, if_neg (by omega)]
      exact ih (by omega) (month + 1)

/-- A day that is not after the end of the months is in one of them, or first after them. -/
theorem monthOf_le {lengths : List Nat} (hlengths : ∀ length ∈ lengths, length ≤ 31) {n : Nat}
    (hn : n ≤ lengths.sum) (month : Nat) :
    (monthOf month lengths n).1 ≤ month + lengths.length ∧ (monthOf month lengths n).2 ≤ 30 := by
  induction lengths generalizing month n with
  | nil =>
    obtain rfl : n = 0 := by simpa using hn
    exact ⟨Nat.le_refl month, Nat.zero_le 30⟩
  | cons length more ih =>
    obtain ⟨hlength, hmore⟩ := List.forall_mem_cons.1 hlengths
    rw [List.sum_cons] at hn
    rw [monthOf]
    split
    · exact ⟨Nat.le_add_right _ _, by omega⟩
    · obtain ⟨hmonth, hday⟩ := ih hmore (n := n - length) (by omega) (month + 1)
      exact ⟨by rw [List.length_cons]; omega, hday⟩

/-! ## Days -/

/-- The fields of a day, the year first. -/
def fields (d : Day) : List Nat :=
  [d.year, d.month, d.day]

/-- The fields of a later day are later. -/
theorem fields_ofOrdinal_lt {m n : Nat} (h : m < n) : (ofOrdinal m).fields < (ofOrdinal n).fields := by
  obtain ⟨hm, -, hnext⟩ := yearAndRest_spec m
  obtain ⟨hn, -, hnext'⟩ := yearAndRest_spec n
  have hyear : (yearAndRest m).1 ≤ (yearAndRest n).1 :=
    daysBeforeYear_le_iff.1 (by omega)
  rw [ofOrdinal_eq, ofOrdinal_eq, fields, fields]
  simp only [List.cons_lt_cons_iff, Nat.add_lt_add_iff_right]
  rcases Nat.lt_or_eq_of_le hyear with hlt | heq
  · exact Or.inl hlt
  · have hrest : (yearAndRest m).2 < (yearAndRest n).2 := by
      rw [heq] at hm
      omega
    rw [heq]
    exact Or.inr ⟨rfl, (monthOf_lt hrest 1 _).imp_right fun h => ⟨h.1, Or.inl h.2⟩⟩

/-- The month and the day of the month of a day have at most two digits. -/
theorem ofOrdinal_lt_hundred (n : Nat) : (ofOrdinal n).month < 100 ∧ (ofOrdinal n).day < 100 := by
  obtain ⟨-, hrest, -⟩ := yearAndRest_spec n
  have hlengths : ∀ leap, (∀ length ∈ monthLengths leap, length ≤ 31) ∧ 365 ≤ (monthLengths leap).sum ∧
      (monthLengths leap).length = 12 := by decide
  obtain ⟨hshort, hsum, htwelve⟩ := hlengths (isLeap (yearAndRest n).1)
  obtain ⟨hmonth, hday⟩ := monthOf_le hshort (hrest.trans hsum) 1
  rw [ofOrdinal_eq]
  dsimp only
  omega

end Imageboard.Day
