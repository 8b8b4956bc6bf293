import Imageboard.Text.LowerCase

/-!
# Single characters in lower case

The table of lower case says what stands for a character. What stands for one is in lower case itself,
and the characters that have no case, blanks and marks among them, are kept and stand for no other.
This is read off the table, of which bit sets are made so that it can be checked one point after the
other.
-/

namespace Imageboard.Text

/-! ## The table -/

/-- The code points of a run. -/
def runPoints (r : Nat × Nat × Nat × Int) : List Nat :=
  (List.range ((r.2.1 - r.1) / r.2.2.1 + 1)).map fun k => r.1 + r.2.2.1 * k

/-- The code points that differ from their lower case. -/
def upperPoints : List Nat :=
  lowerRuns.flatMap runPoints

/-- The code points that others are sent to. -/
def imagePoints : List Nat :=
  lowerRuns.flatMap fun r => (runPoints r).map fun (n : Nat) => ((n : Int) + r.2.2.2).toNat

/-- A set of code points as a number with their bits. -/
def bitsOf (ns : List Nat) : Nat :=
  ns.foldr (fun n bits => bits ||| 1 <<< n) 0

/-- A code point is in the set if its bit is there. -/
theorem testBit_bitsOf (ns : List Nat) (n : Nat) : (bitsOf ns).testBit n = true ↔ n ∈ ns := by
  induction ns with
  | nil => simp [bitsOf]
  | cons m rest ih =>
    have hcons : bitsOf (m :: rest) = bitsOf rest ||| 1 <<< m := rfl
    rw [hcons, Nat.testBit_or, Bool.or_eq_true, ih, List.mem_cons, Nat.one_shiftLeft,
      Nat.testBit_two_pow, decide_eq_true_eq, or_comm, eq_comm]

/-- The points of a run are those that it changes. -/
theorem mem_runPoints_iff {r : Nat × Nat × Nat × Int} {n : Nat} (hr : r.1 ≤ r.2.1) :
    n ∈ runPoints r ↔ (r.1 ≤ n && n ≤ r.2.1 && (n - r.1) % r.2.2.1 == 0) = true := by
  simp only [runPoints, List.mem_map, List.mem_range, Bool.and_eq_true, decide_eq_true_eq, beq_iff_eq]
  constructor
  · rintro ⟨k, hk, rfl⟩
    have hle := Nat.mul_le_mul_left r.2.2.1 (Nat.le_of_lt_succ hk)
    have hdiv := Nat.mul_div_le (r.2.1 - r.1) r.2.2.1
    rw [Nat.add_sub_cancel_left, Nat.mul_mod_right]
    omega
  · rintro ⟨⟨hfirst, hlast⟩, hstep⟩
    have hdiv := Nat.div_add_mod (n - r.1) r.2.2.1
    have hle := Nat.div_le_div_right (c := r.2.2.1) (Nat.sub_le_sub_right hlast r.1)
    exact ⟨(n - r.1) / r.2.2.1, by omega, by omega⟩

/-- Runs go forward. -/
theorem first_le_last : ∀ r ∈ lowerRuns, r.1 ≤ r.2.1 := by decide +kernel

/-- The simple mapping keeps a code point that is not in the table and sends one that is to an
image. -/
theorem lowerPoint_cases (n : Nat) :
    n ∉ upperPoints ∧ lowerPoint n = n ∨ n ∈ upperPoints ∧ lowerPoint n ∈ imagePoints := by
  unfold lowerPoint
  split
  next r hr =>
    have hrun := List.mem_of_find?_eq_some hr
    have hfound := List.find?_some hr
    have hpoint : n ∈ runPoints r := (mem_runPoints_iff (first_le_last r hrun)).2 hfound
    exact Or.inr ⟨List.mem_flatMap.2 ⟨r, hrun, hpoint⟩,
      List.mem_flatMap.2 ⟨r, hrun, List.mem_map.2 ⟨n, hpoint, rfl⟩⟩⟩
  next hnone =>
    refine Or.inl ⟨fun hn => ?_, rfl⟩
    obtain ⟨r, hrun, hpoint⟩ := List.mem_flatMap.1 hn
    exact List.find?_eq_none.1 hnone r hrun ((mem_runPoints_iff (first_le_last r hrun)).1 hpoint)

/-- Whether a code point is sent to another one. -/
def isUpperPoint (n : Nat) : Bool :=
  (bitsOf upperPoints).testBit n

/-- The points of the table are those that are sent to others. -/
theorem isUpperPoint_iff (n : Nat) : isUpperPoint n = true ↔ n ∈ upperPoints :=
  testBit_bitsOf upperPoints n

/-- What is computed from the bit sets of the table. It stands in one place so that the sets are made
once. -/
theorem bits_table : bitsOf ('İ'.toNat :: upperPoints) &&& bitsOf imagePoints = 0 ∧
    (isUpperPoint 'Σ'.toNat &&
      ['i', Char.ofNat 0x307, 'σ', 'ς'].all fun c => !isUpperPoint c.toNat) = true ∧
    (∀ n < 0x80, (Char.ofNat n).toLower =
      if isUpperPoint n then Char.ofNat (lowerPoint n) else Char.ofNat n) ∧
    (bitsOf imagePoints).testBit 'i'.toNat = true := by
  decide +kernel

/-- A valid code point is that of its character. -/
theorem toNat_ofNat {n : Nat} (h : n.isValidChar) : (Char.ofNat n).toNat = n := by
  unfold Char.ofNat
  rw [dif_pos h]
  rfl

/-- No image is sent on, and none is the dotted capital I. -/
theorem image_not_upper {n : Nat} (h : n ∈ imagePoints) : isUpperPoint n = false ∧ n ≠ 'İ'.toNat := by
  have hdisjoint : bitsOf ('İ'.toNat :: upperPoints) &&& bitsOf imagePoints = 0 := bits_table.1
  have hbit : (bitsOf ('İ'.toNat :: upperPoints) &&& bitsOf imagePoints).testBit n = false := by
    rw [hdisjoint, Nat.zero_testBit]
  rw [Nat.testBit_and, (testBit_bitsOf _ _).2 h, Bool.and_true, ← Bool.not_eq_true, testBit_bitsOf,
    List.mem_cons, not_or] at hbit
  exact ⟨by rw [← Bool.not_eq_true, isUpperPoint_iff]; exact hbit.2, hbit.1⟩

/-- Images are code points of characters. -/
theorem isValidChar_image {n : Nat} (h : n ∈ imagePoints) : n.isValidChar := by
  have hruns : ∀ r ∈ lowerRuns, r.2.1 + r.2.2.2 < 0xd800 ∨
      0xdfff < r.1 + r.2.2.2 ∧ r.2.1 + r.2.2.2 < 0x110000 := by decide +kernel
  obtain ⟨r, hr, himage⟩ := List.mem_flatMap.1 h
  obtain ⟨m, hm, rfl⟩ := List.mem_map.1 himage
  rw [mem_runPoints_iff (first_le_last r hr)] at hm
  simp only [Bool.and_eq_true, decide_eq_true_eq] at hm
  have hbounds := hruns r hr
  unfold Nat.isValidChar
  omega

/-- How the table treats the characters with rules of their own. -/
theorem isUpperPoint_special : isUpperPoint 'Σ'.toNat = true ∧
    ∀ c ∈ ['i', Char.ofNat 0x307, 'σ', 'ς'], isUpperPoint c.toNat = false := by
  obtain ⟨hsigma, hlower⟩ := Bool.and_eq_true_iff.1 bits_table.2.1
  exact ⟨hsigma, fun c hc => by simpa using List.all_eq_true.1 hlower c hc⟩

/-- In ASCII the table says what folding says. -/
theorem toLower_eq {c : Char} (h : c.toNat < 0x80) : c.toLower = Char.ofNat (lowerPoint c.toNat) := by
  have hc := bits_table.2.2.1 c.toNat h
  rw [Char.ofNat_toNat] at hc
  rw [hc]
  rcases lowerPoint_cases c.toNat with ⟨hnot, hkept⟩ | ⟨hupper, -⟩
  · rw [← isUpperPoint_iff] at hnot
    rw [if_neg hnot, hkept, Char.ofNat_toNat]
  · rw [if_pos ((isUpperPoint_iff _).2 hupper)]

/-- But for the dotted capital I, a character is lowered by the table. -/
theorem lowerChar_eq {c : Char} (h : c ≠ 'İ') : lowerChar c = [Char.ofNat (lowerPoint c.toNat)] := by
  unfold lowerChar
  rw [if_neg h]
  split
  next hascii => rw [toLower_eq hascii]
  next => rfl

/-! ## Characters in lower case -/

/-- Whether a character is in lower case or has no case. -/
def Settled (c : Char) : Prop :=
  lowerChar c = [c] ∧ c ≠ 'Σ'

/-- A character that is not in the table is settled. -/
theorem settled_of_not_upper {c : Char} (h : isUpperPoint c.toNat = false) (hdotted : c ≠ 'İ') :
    Settled c := by
  constructor
  · rcases lowerPoint_cases c.toNat with ⟨-, hkept⟩ | ⟨hupper, -⟩
    · rw [lowerChar_eq hdotted, hkept, Char.ofNat_toNat]
    · rw [(isUpperPoint_iff _).2 hupper] at h
      cases h
  · rintro rfl
    rw [isUpperPoint_special.1] at h
    cases h

/-- What a character is lowered to is settled. -/
theorem settled_of_mem_lowerChar {c d : Char} (h : d ∈ lowerChar c) : Settled d := by
  by_cases hdotted : c = 'İ'
  · subst hdotted
    simp only [lowerChar, if_true, List.mem_cons, List.not_mem_nil, or_false] at h
    rcases h with rfl | rfl <;>
      exact settled_of_not_upper (isUpperPoint_special.2 _ (by simp)) (by decide)
  · rw [lowerChar_eq hdotted, List.mem_singleton] at h
    subst h
    rcases lowerPoint_cases c.toNat with ⟨hnot, hkept⟩ | ⟨-, himage⟩
    · rw [hkept, Char.ofNat_toNat]
      rw [← isUpperPoint_iff, Bool.not_eq_true] at hnot
      exact settled_of_not_upper hnot hdotted
    · obtain ⟨hnot, hother⟩ := image_not_upper himage
      have hpoint : (Char.ofNat (lowerPoint c.toNat)).toNat = lowerPoint c.toNat :=
        toNat_ofNat (isValidChar_image himage)
      refine settled_of_not_upper (by rwa [hpoint]) fun heq => hother ?_
      rw [← hpoint, heq]

/-- Whether a character has no case: lowering keeps it and turns no other character into it. -/
def isCaseless (c : Char) : Bool :=
  !(bitsOf (upperPoints ++ imagePoints)).testBit c.toNat &&
    c != 'İ' && c != Char.ofNat 0x307 && c != 'ς'

/-- Blanks, the marks of a query and the null character have no case, and the characters with rules of their
own have; this is computed in one place as well. -/
theorem isCaseless_table : (∀ r ∈ blankRanges, (runPoints (r.1, r.2, 1, 0)).all fun n =>
      isCaseless (Char.ofNat n)) ∧
    ([':', '"', '-', '~', '*', '\x00'].all isCaseless &&
      ['i', 'Σ', 'σ', 'ς'].all fun c => !isCaseless c) = true := by
  decide +kernel

/-- A caseless character is in what another one is lowered to only if it is that one. -/
theorem mem_lowerChar_iff {c x : Char} (hx : isCaseless x = true) : x ∈ lowerChar c ↔ c = x := by
  simp only [isCaseless, Bool.and_eq_true, Bool.not_eq_true', ← Bool.not_eq_true, testBit_bitsOf,
    List.mem_append, not_or, bne_iff_ne] at hx
  obtain ⟨⟨⟨⟨hupper, himage⟩, hdotted⟩, hdot⟩, -⟩ := hx
  have hsmall : x ≠ 'i' := by
    rintro rfl
    exact himage ((testBit_bitsOf _ _).1 bits_table.2.2.2)
  by_cases hc : c = 'İ'
  · subst hc
    simp [lowerChar, hsmall, hdot, hdotted.symm]
  · rw [lowerChar_eq hc, List.mem_singleton]
    rcases lowerPoint_cases c.toNat with ⟨-, hkept⟩ | ⟨hc, himage'⟩
    · rw [hkept, Char.ofNat_toNat, eq_comm]
    · constructor
      · rintro rfl
        rw [toNat_ofNat (isValidChar_image himage')] at himage
        exact absurd himage' himage
      · rintro rfl
        exact absurd hc hupper

/-- A caseless character is kept. -/
theorem lowerChar_of_caseless {x : Char} (hx : isCaseless x = true) : lowerChar x = [x] := by
  simp only [isCaseless, Bool.and_eq_true, Bool.not_eq_true', ← Bool.not_eq_true, testBit_bitsOf,
    List.mem_append, not_or, bne_iff_ne] at hx
  obtain ⟨⟨⟨⟨hupper, -⟩, hdotted⟩, -⟩, -⟩ := hx
  rw [← isUpperPoint_iff, Bool.not_eq_true] at hupper
  exact (settled_of_not_upper hupper hdotted).1

/-- A blank is one of the points of the table. -/
theorem exists_mem_runPoints_of_isBlank {c : Char} (h : isBlank c = true) :
    ∃ r ∈ blankRanges, c.toNat ∈ runPoints (r.1, r.2, 1, 0) := by
  obtain ⟨r, hr, hin⟩ := List.any_eq_true.1 h
  simp only [Bool.and_eq_true, decide_eq_true_eq] at hin
  exact ⟨r, hr, (mem_runPoints_iff (Nat.le_trans hin.1 hin.2)).2 (by simpa [Nat.mod_one] using hin)⟩

/-- Blanks have no case. -/
theorem isCaseless_of_isBlank {c : Char} (h : isBlank c = true) : isCaseless c = true := by
  obtain ⟨r, hr, hpoint⟩ := exists_mem_runPoints_of_isBlank h
  have hc := List.all_eq_true.1 (isCaseless_table.1 r hr) _ hpoint
  rwa [Char.ofNat_toNat] at hc

/-- The marks of a query and the null character have no case, and the characters with rules of their own
have. -/
theorem isCaseless_special : (∀ c ∈ [':', '"', '-', '~', '*', '\x00'], isCaseless c = true) ∧
    ∀ c ∈ ['i', 'Σ', 'σ', 'ς'], isCaseless c = false := by
  obtain ⟨hmarks, hcased⟩ := Bool.and_eq_true_iff.1 isCaseless_table.2
  exact ⟨List.all_eq_true.1 hmarks, fun c hc => by simpa using List.all_eq_true.1 hcased c hc⟩

end Imageboard.Text
