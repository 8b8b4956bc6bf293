import Imageboard.Calendar.Day
import Mathlib.Algebra.Ring.Nat
import Mathlib.Data.List.Lex
import Mathlib.Data.List.Forall2

/-!
# Numerals of a fixed width

Numbers that are padded with zeros to one width are in the same order as texts and as numbers. The same
holds of texts in which such numerals stand in a row, with the same separators between them: the first
numeral in which two of these texts differ decides which of them comes first.
-/

namespace Imageboard.Day

/-- The last digits of a number, as many as `width`. -/
def lastDigits : Nat → Nat → List Char
  | 0, _ => []
  | width + 1, n => lastDigits width (n / 10) ++ [(n % 10).digitChar]

variable {width m n : Nat}

/-- The last digits are as many as they are to be. -/
@[simp] theorem length_lastDigits (width n : Nat) : (lastDigits width n).length = width := by
  induction width generalizing n with
  | zero => rfl
  | succ width ih => rw [lastDigits, List.length_append, ih, List.length_singleton]

/-- The last digits of zero are zeros. -/
theorem lastDigits_zero (width : Nat) : lastDigits width 0 = List.replicate width '0' := by
  induction width with
  | zero => rfl
  | succ width ih => rw [lastDigits, Nat.zero_div, ih, List.replicate_succ']; rfl

/-- The last digits are digits. -/
theorem isDigit_of_mem_lastDigits {c : Char} (hc : c ∈ lastDigits width n) : c.isDigit := by
  induction width generalizing n with
  | zero => cases hc
  | succ width ih =>
    rcases List.mem_append.1 hc with hc | hc
    · exact ih hc
    · obtain rfl := List.mem_singleton.1 hc
      have hdigits : ∀ d < 10, (Nat.digitChar d).isDigit := by decide
      exact hdigits (n % 10) (Nat.mod_lt n (by decide))

/-- A number of some digits is written with its last ones, as many. -/
theorem toDigits_eq_lastDigits (hlower : 10 ^ width ≤ n) (hupper : n < 10 ^ (width + 1)) :
    Nat.toDigits 10 n = lastDigits (width + 1) n := by
  induction width generalizing n with
  | zero =>
    have hsmall : n < 10 := by simpa using hupper
    rw [Nat.toDigits_of_lt_base hsmall, lastDigits, lastDigits, Nat.mod_eq_of_lt hsmall, List.nil_append]
  | succ width ih =>
    rw [Nat.pow_succ] at hlower hupper
    have hpos : 0 < 10 ^ width := Nat.pow_pos (by decide)
    rw [Nat.toDigits_of_base_le (by decide) (by omega), ih (by omega) (by omega)]
    rfl

/-- A number that is padded to a width that it does not exceed is written with as many digits. -/
theorem toList_padded (hpos : 0 < width) (hn : n < 10 ^ width) :
    (padded width n).toList = lastDigits width n := by
  rw [padded, String.toList_ofList]
  induction width generalizing n with
  | zero => exact absurd hpos (Nat.lt_irrefl 0)
  | succ width ih =>
    by_cases hsmall : n < 10
    · rw [Nat.toDigits_of_lt_base hsmall, lastDigits, Nat.div_eq_of_lt hsmall, Nat.mod_eq_of_lt hsmall,
        lastDigits_zero]
      rfl
    · have hwidth : 0 < width := by
        by_contra hzero
        obtain rfl : width = 0 := by omega
        exact hsmall (by simpa using hn)
      rw [Nat.pow_succ] at hn
      rw [Nat.toDigits_of_base_le (by decide) (by omega), lastDigits, ← ih hwidth (by omega),
        List.length_append, List.length_singleton, Nat.add_sub_add_right, List.append_assoc]

/-- A number that has as many digits is written with them, without padding. -/
theorem toList_padded_zero (hlower : 10 ^ width ≤ n) (hupper : n < 10 ^ (width + 1)) :
    (padded 0 n).toList = lastDigits (width + 1) n := by
  rw [padded, String.toList_ofList, Nat.zero_sub, List.replicate_zero, List.nil_append,
    toDigits_eq_lastDigits hlower hupper]

/-! ## Order -/

/-- Of lists whose beginnings are as long as each other and differ, these decide. -/
theorem append_lt_append_of_lt {α : Type} [LT α] {p q x y : List α} (hlength : p.length = q.length)
    (h : p < q) : p ++ x < q ++ y := by
  induction p generalizing q with
  | nil =>
    obtain rfl := List.eq_nil_of_length_eq_zero hlength.symm
    exact absurd h (List.not_lt_nil [])
  | cons a p ih =>
    cases q with
    | nil => cases hlength
    | cons b q =>
      rw [List.cons_append, List.cons_append, List.cons_lt_cons_iff]
      rcases List.cons_lt_cons_iff.1 h with hab | ⟨rfl, hpq⟩
      · exact Or.inl hab
      · exact Or.inr ⟨rfl, ih (Nat.succ.inj hlength) hpq⟩

/-- Numerals of one width are ordered as their numbers. -/
theorem lastDigits_lt (h : m < n) (hn : n < 10 ^ width) : lastDigits width m < lastDigits width n := by
  induction width generalizing m n with
  | zero => omega
  | succ width ih =>
    rw [Nat.pow_succ] at hn
    rw [lastDigits, lastDigits]
    rcases Nat.lt_or_eq_of_le (Nat.div_le_div_right (c := 10) h.le) with htens | htens
    · exact append_lt_append_of_lt (by simp) (ih htens (by omega))
    · have hdigits : ∀ a < 10, ∀ b < 10, a < b → Nat.digitChar a < Nat.digitChar b := by decide
      rw [htens]
      exact List.append_left_lt (List.cons_lt_cons_iff.2 (Or.inl
        (hdigits _ (Nat.mod_lt m (by decide)) _ (Nat.mod_lt n (by decide)) (by omega))))

/-- Numerals in a row, each with its width and with its separator behind it. -/
def row : List (Nat × List Char) → List Nat → List Char
  | (width, separator) :: layout, n :: ns => lastDigits width n ++ (separator ++ row layout ns)
  | _, _ => []

/-- Rows of numerals with one layout are ordered as the numbers are, the first ones before the others. -/
theorem row_lt {layout : List (Nat × List Char)} {ms ns : List Nat} (hlength : ms.length = ns.length)
    (hns : List.Forall₂ (fun column n => n < 10 ^ column.1) layout ns) (h : ms < ns) :
    row layout ms < row layout ns := by
  induction hns generalizing ms with
  | nil =>
    obtain rfl := List.eq_nil_of_length_eq_zero hlength
    exact absurd h (List.lt_irrefl [])
  | @cons column n layout ns hn _ ih =>
    cases ms with
    | nil => cases hlength
    | cons m ms =>
      obtain ⟨width, separator⟩ := column
      rw [row, row]
      rcases List.cons_lt_cons_iff.1 h with hmn | ⟨rfl, hmore⟩
      · exact append_lt_append_of_lt (by simp) (lastDigits_lt hmn hn)
      · exact List.append_left_lt (List.append_left_lt (ih (Nat.succ.inj hlength) hmore))

end Imageboard.Day
