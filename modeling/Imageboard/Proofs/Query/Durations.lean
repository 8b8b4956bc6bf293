import Imageboard.Proofs.Query.Ranging
import Mathlib.Data.List.TakeWhile

/-!
# Durations

A duration is written as digits and a unit, without a sign, so the seconds that are read are not negative:
no character of the number is a minus sign, neither before nor after blanks and digits of other scripts are
made plain, and products and whole parts of numbers without a sign have none.
-/

namespace Imageboard

namespace Binary64

variable {x y : Binary64} {negative : Bool}

/-- A number that is packed has the given sign. -/
theorem isNegative_pack (negative : Bool) (mantissa : Nat) (exponent : Int) :
    (pack negative mantissa exponent).isNegative = negative := by
  unfold pack
  dsimp only
  repeat' split
  all_goals rfl

/-- A quotient has the given sign. -/
theorem isNegative_ofQuotient (negative : Bool) (num den : Nat) :
    (ofQuotient negative num den).isNegative = negative := by
  unfold ofQuotient
  split
  · rfl
  · exact isNegative_pack ..

/-- A decimal has the given sign. -/
theorem isNegative_ofDecimal (negative : Bool) (digits : Nat) (exponent : Int) :
    (ofDecimal negative digits exponent).isNegative = negative := by
  unfold ofDecimal
  dsimp only
  repeat' split
  · rfl
  · rfl
  · rfl
  · exact isNegative_ofQuotient ..
  · exact isNegative_ofQuotient ..

/-- A product of numbers without a sign has none. -/
theorem isNegative_mul (hx : x.isNegative = false) (hy : y.isNegative = false) :
    (x.mul y).isNegative = false := by
  unfold mul
  split
  · rfl
  · rfl
  · split
    · rfl
    · simp_all [isNegative]
  · split
    · rfl
    · simp_all [isNegative]
  · rw [isNegative_ofQuotient]
    simp_all [isNegative]

/-- The whole part of a number without a sign is not negative. -/
theorem truncate?_nonneg (hx : x.isNegative = false) {n : Int} (h : x.truncate? = some n) : 0 ≤ n := by
  unfold truncate? at h
  split at h
  next s m e =>
    obtain rfl : s = false := hx
    obtain rfl := Option.some.inj h
    exact Int.natCast_nonneg _
  next => cases h

end Binary64

/-! ## Numerals without a sign -/

variable {cs : List Char}

/-- No minus sign comes into a numeral when it is made plain. -/
theorem minus_not_mem_plainNumeral (h : '-' ∉ cs) : '-' ∉ plainNumeral cs := by
  intro hmem
  obtain ⟨c, hc, heq⟩ := List.mem_map.1 hmem
  split at heq
  · exact h (heq ▸ hc)
  · split at heq
    · cases heq
    · split at heq
      next d hd =>
        have hdigits : ∀ k < 10, Nat.digitChar k ≠ '-' := by decide
        exact hdigits d (Text.digitValue?_lt hd) heq
      next => cases heq

/-- No minus sign is left in a numeral without the blanks around it. -/
theorem minus_not_mem_trimmedNumeral (h : '-' ∉ cs) : '-' ∉ trimmedNumeral cs := by
  intro hmem
  have hend := (List.dropWhile_sublist _).subset (List.mem_reverse.1 hmem)
  have hplain := (List.dropWhile_sublist _).subset (List.mem_reverse.1 hend)
  exact minus_not_mem_plainNumeral h hplain

/-- Removing underscores adds no characters. -/
theorem dropUnderscores_subset {afterDigit : Bool} {ds : List Char}
    (h : dropUnderscores afterDigit cs = some ds) : ds ⊆ cs := by
  fun_induction dropUnderscores afterDigit cs generalizing ds with
  | case1 => simp_all
  | case2 afterDigit c rest hdigit ih => exact List.subset_cons_of_subset _ (ih h)
  | case3 => cases h
  | case4 => cases h
  | case5 afterDigit c rest _ _ ih =>
    obtain ⟨more, hmore, rfl⟩ := Option.map_eq_some_iff.1 h
    exact List.cons_subset_cons c (ih hmore)

/-- A number that is read without its sign has the given sign. -/
theorem isNegative_of_readUnsignedReal? {negative : Bool} {x : Binary64}
    (h : readUnsignedReal? negative cs = some x) : x.isNegative = negative := by
  unfold readUnsignedReal? at h
  dsimp only at h
  repeat' split at h
  all_goals cases h
  all_goals exact Binary64.isNegative_ofDecimal ..

/-- A number that is written without a minus sign has no sign. -/
theorem isNegative_of_readReal? {s : String} {x : Binary64} (hs : '-' ∉ s.toList)
    (h : readReal? s = some x) : x.isNegative = false := by
  unfold readReal? at h
  split at h
  · cases h
  next body hbody =>
    have hminus : '-' ∉ body := fun hmem =>
      minus_not_mem_trimmedNumeral hs (dropUnderscores_subset hbody hmem)
    have hsign : (splitSign body).1 = false := by
      unfold splitSign
      split
      · exact absurd List.mem_cons_self hminus
      · rfl
      · rfl
    dsimp only at h
    rw [hsign] at h
    split at h
    · exact Option.some.inj h ▸ rfl
    · exact Option.some.inj h ▸ rfl
    · exact Option.some.inj h ▸ rfl
    · exact isNegative_of_readUnsignedReal? h

namespace Query

open Text

/-- A minus sign is not among the digits at the start of a text. -/
theorem minus_not_mem_takeWhile_isDigit (cs : List Char) : '-' ∉ cs.takeWhile isDigit := fun hmem =>
  absurd (List.mem_takeWhile_imp hmem : isDigit '-' = true) (by decide)

/-- A number with a unit behind it has no sign. -/
theorem isNegative_of_splitUnit? {s : String} {found : Binary64 × String} (h : splitUnit? s = some found) :
    found.1.isNegative = false := by
  unfold splitUnit? at h
  extract_lets cs whole rest fraction kept letters at h
  have hfraction : '-' ∉ fraction := by
    unfold fraction
    clear_value rest
    split
    · simp [minus_not_mem_takeWhile_isDigit]
    · exact List.not_mem_nil
  have hkept : '-' ∉ kept := by
    unfold kept
    split
    · exact List.not_mem_nil
    · exact hfraction
  split at h
  · cases h
  · obtain ⟨x, hx, rfl⟩ := Option.map_eq_some_iff.1 h
    refine isNegative_of_readReal? ?_ hx
    rw [String.toList_ofList, List.mem_append, not_or]
    exact ⟨minus_not_mem_takeWhile_isDigit cs, hkept⟩

/-- A duration is not negative. -/
theorem exists_nat_of_readDuration {s : String} {v : Value} (h : readDuration s = .ok v) :
    ∃ n : Nat, v = .integer n := by
  unfold readDuration at h
  split at h
  · cases h
  next x unit hsplit =>
    split at h
    · cases h
    next factor _ =>
      have hfactor : (Binary64.ofInt factor).isNegative = false := by
        rw [Binary64.ofInt, Binary64.isNegative_ofQuotient]
        simp
      have hproduct := Binary64.isNegative_mul (isNegative_of_splitUnit? hsplit) hfactor
      unfold wholePart at h
      split at h
      next n hn =>
        have hnonneg := Binary64.truncate?_nonneg hproduct hn
        exact ⟨n.toNat, by rw [← Except.ok.inj h, Int.toNat_of_nonneg hnonneg]⟩
      next => cases h

end Query

end Imageboard
