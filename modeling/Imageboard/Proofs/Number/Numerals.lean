import Imageboard.Number.Read
import Mathlib.Algebra.Ring.Nat
import Mathlib.Data.List.Induction

/-!
# Integers in writing

The text of an integer is its digits, behind a minus sign if it is negative. It is read back as the integer
if it has no more digits than are read, and every integer that is read, in whatever digits and with whatever
signs, underscores, zeros and blanks, is of that kind.
-/

namespace Imageboard

open Text

/-- Whether an integer has no more digits than are read. -/
def IsReadable (n : Int) : Prop :=
  (Nat.toDigits 10 n.natAbs).length ≤ maxDigits

/-- A run of digits stands for less than the power of ten of its length. -/
theorem digitsToNat_lt {ds : List Char} (h : ∀ c ∈ ds, c.isDigit = true) :
    digitsToNat ds < 10 ^ ds.length := by
  induction ds using List.reverseRecOn with
  | nil => exact Nat.one_pos
  | append_singleton ds c ih =>
    have hinit := ih fun d hd => h d (List.mem_append_left _ hd)
    have hlast : c.toNat - 0x30 < 10 := by
      have hc := h c (by simp)
      simp only [Char.isDigit, Bool.and_eq_true, decide_eq_true_eq] at hc
      have hnine : c.toNat ≤ '9'.toNat := hc.2
      have : '9'.toNat = 0x39 := rfl
      omega
    have hstep : digitsToNat (ds ++ [c]) = 10 * digitsToNat ds + (c.toNat - 0x30) := by
      rw [digitsToNat, List.foldl_append]
      rfl
    rw [hstep, List.length_append, List.length_singleton, Nat.pow_succ]
    omega

/-- An integer that is read has no more digits than are read. -/
theorem isReadable_of_readInteger? {s : String} {n : Int} (h : readInteger? s = some n) :
    IsReadable n := by
  unfold readInteger? at h
  dsimp only at h
  split at h
  · cases h
  next ds _ =>
    split at h
    · cases h
    next hdigits =>
      simp only [Bool.or_eq_true, not_or, Bool.not_eq_true', Bool.not_eq_false, decide_eq_true_eq,
        Nat.not_lt] at hdigits
      obtain ⟨⟨-, hall⟩, hlength⟩ := hdigits
      have habs : n.natAbs = digitsToNat ds := by
        obtain rfl := Option.some.inj h
        split <;> simp
      have hlt := digitsToNat_lt (List.all_eq_true.1 hall)
      rw [IsReadable, Nat.length_toDigits_le_iff (by decide) (by decide), habs]
      exact Nat.lt_of_lt_of_le hlt (Nat.pow_le_pow_right (by decide) hlength)

/-- The text of an integer is its digits, behind a minus sign if it is negative. -/
theorem toList_toString (n : Int) : (toString n).toList =
    if 0 ≤ n then Nat.toDigits 10 n.natAbs else '-' :: Nat.toDigits 10 n.natAbs := by
  rw [Int.toString_eq_repr, Int.repr_eq_if]
  split
  next hn =>
    have habs : n.toNat = n.natAbs := by omega
    rw [Nat.toList_repr, habs]
  next hn =>
    have habs : (-n).toNat = n.natAbs := by omega
    rw [String.toList_append, Nat.toList_repr, habs]
    rfl

/-- Whether a character can stand in the text of an integer. -/
def IsNumeral (c : Char) : Prop :=
  c.isDigit = true ∨ c = '-'

/-- The text of an integer has digits and perhaps a minus sign. -/
theorem isNumeral_of_mem_toString {n : Int} {c : Char} (hc : c ∈ (toString n).toList) :
    IsNumeral c := by
  rw [toList_toString] at hc
  split at hc
  · exact Or.inl (Nat.isDigit_of_mem_toDigits (by decide) (by decide) hc)
  · rcases List.mem_cons.1 hc with rfl | hc
    · exact Or.inr rfl
    · exact Or.inl (Nat.isDigit_of_mem_toDigits (by decide) (by decide) hc)

/-- The text of an integer is not empty. -/
theorem toList_toString_ne_nil (n : Int) : (toString n).toList ≠ [] := by
  rw [toList_toString]
  split
  · exact Nat.toDigits_ne_nil
  · exact List.cons_ne_nil _ _

/-- Where a character of an integer lies in ASCII. -/
theorem IsNumeral.toNat {c : Char} (h : IsNumeral c) :
    c.toNat = 0x2d ∨ 0x30 ≤ c.toNat ∧ c.toNat ≤ 0x39 := by
  rcases h with h | rfl
  · simp only [Char.isDigit, Bool.and_eq_true, decide_eq_true_eq] at h
    exact Or.inr h
  · exact Or.inl rfl

/-- The characters of an integer are not blank. -/
theorem IsNumeral.not_isBlank {c : Char} (h : IsNumeral c) : isBlank c = false := by
  have hranges : ∀ r ∈ blankRanges, r.2 < 0x2d ∨ 0x39 < r.1 := by decide
  rw [isBlank, inRanges, List.any_eq_false]
  intro r hr
  have hc := h.toNat
  have hr := hranges r hr
  simp only [Bool.and_eq_true, decide_eq_true_eq]
  omega

/-- Text of the characters of integers has nothing to make plain and no blanks around it. -/
theorem trimmedNumeral_eq_self {cs : List Char} (h : ∀ c ∈ cs, IsNumeral c) :
    trimmedNumeral cs = cs := by
  have hplain : plainNumeral cs = cs := by
    refine (List.map_congr_left fun c hc => ?_).trans (List.map_id cs)
    have := (h c hc).toNat
    exact if_pos (by omega)
  have hblank {c : Char} (hc : c ∈ cs) : isAsciiBlank c = false := by
    have := (h c hc).toNat
    simp only [isAsciiBlank, Bool.or_eq_false_iff, Bool.and_eq_false_iff, decide_eq_false_iff_not]
    refine ⟨?_, by omega⟩
    rintro rfl
    revert this
    decide
  have hdrop {ds : List Char} (hds : ∀ c ∈ ds, isAsciiBlank c = false) :
      ds.dropWhile isAsciiBlank = ds := by
    cases ds with
    | nil => rfl
    | cons d rest => exact List.dropWhile_cons_of_neg (by simp [hds d])
  rw [trimmedNumeral, hplain, hdrop fun c hc => hblank hc,
    hdrop fun c hc => hblank (List.mem_reverse.1 hc), List.reverse_reverse]

/-- There are no underscores among digits. -/
theorem dropUnderscores_eq_self {afterDigit : Bool} {ds : List Char} (h : ∀ c ∈ ds, c.isDigit = true) :
    dropUnderscores afterDigit ds = some ds := by
  induction ds generalizing afterDigit with
  | nil => rw [dropUnderscores]
  | cons c rest ih =>
    have hmark : c ≠ '_' := by
      rintro rfl
      exact absurd (h '_' List.mem_cons_self) (by decide)
    rw [dropUnderscores, ih fun d hd => h d (List.mem_cons_of_mem _ hd), Option.map_some]
    · exact fun d more hc => absurd hc hmark
    · exact fun hc => absurd hc hmark

/-- The text of an integer that has no more digits than are read is read as the integer. -/
theorem readInteger?_toString {n : Int} (h : IsReadable n) : readInteger? (toString n) = some n := by
  have hdigits : ∀ c ∈ Nat.toDigits 10 n.natAbs, c.isDigit = true := fun c hc =>
    Nat.isDigit_of_mem_toDigits (by decide) (by decide) hc
  have hsign : splitSign (toString n).toList = (decide (n < 0), Nat.toDigits 10 n.natAbs) := by
    rw [toList_toString]
    split
    next hn =>
      rw [decide_eq_false (by omega)]
      cases hds : Nat.toDigits 10 n.natAbs with
      | nil => rfl
      | cons c rest =>
        have hc : c.isDigit = true := hdigits c (by simp [hds])
        have hmark {mark : Char} (hmark : mark.isDigit = false) : c ≠ mark := by
          rintro rfl
          rw [hc] at hmark
          cases hmark
        rw [splitSign]
        · exact fun _ hcons => hmark (by decide) (List.cons.inj hcons).1
        · exact fun _ hcons => hmark (by decide) (List.cons.inj hcons).1
    next hn => rw [decide_eq_true (by omega), splitSign]
  have hvalue : digitsToNat (Nat.toDigits 10 n.natAbs) = n.natAbs := Nat.ofDigitChars_ten_toDigits
  have hcond : ((Nat.toDigits 10 n.natAbs).isEmpty || !(Nat.toDigits 10 n.natAbs).all Char.isDigit ||
      decide ((Nat.toDigits 10 n.natAbs).length > maxDigits)) = false := by
    rw [List.isEmpty_eq_false_iff.2 Nat.toDigits_ne_nil, List.all_eq_true.2 hdigits,
      decide_eq_false (Nat.not_lt.2 h)]
    rfl
  unfold readInteger?
  rw [trimmedNumeral_eq_self fun c => isNumeral_of_mem_toString, hsign]
  dsimp only
  rw [dropUnderscores_eq_self hdigits]
  dsimp only
  rw [hcond, hvalue, if_neg Bool.false_ne_true]
  by_cases hn : n < 0
  · rw [if_pos (decide_eq_true hn)]
    exact congrArg some (by omega)
  · rw [if_neg (by simpa using hn)]
    exact congrArg some (by omega)

end Imageboard
