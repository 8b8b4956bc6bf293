import Imageboard.Text.LowerCase

/-!
# Folding and lower case

The tables of the store compare names up to the case of ASCII letters, searches in lower case over all
of Unicode. Folding ASCII letters first changes nothing in the lower case of a text, the forms of its
sigmas included: a letter is cased in both cases. So names that the tables take for one are one in
lower case. The converse fails for each letter beyond ASCII that has a lower case.
-/

namespace Imageboard.Text

/-- A capital letter of ASCII. -/
def IsCapital (c : Char) : Prop :=
  0x41 ≤ c.toNat ∧ c.toNat ≤ 0x5a

/-- Folding keeps all characters but capital letters of ASCII. -/
theorem toLower_of_not_isCapital {c : Char} (h : ¬ IsCapital c) : c.toLower = c :=
  dif_neg h

/-- A capital letter is folded to the small letter, which is its lower case; both are cased. -/
theorem of_isCapital {c : Char} (h : IsCapital c) :
    c.toLower.toNat = c.toNat + 32 ∧ lowerChar c.toLower = lowerChar c ∧
      inRanges casedRanges c.toLower.toNat = true ∧ inRanges casedRanges c.toNat = true := by
  have hall : ∀ n ≤ 0x5a, 0x41 ≤ n → (Char.ofNat n).toLower.toNat = n + 32 ∧
      lowerChar (Char.ofNat n).toLower = lowerChar (Char.ofNat n) ∧
      inRanges casedRanges (Char.ofNat n).toLower.toNat = true ∧ inRanges casedRanges n = true := by
    decide +kernel
  have hc := hall c.toNat h.2 h.1
  rwa [Char.ofNat_toNat] at hc

/-- No letter of ASCII is ignorable. -/
theorem not_ignorable_of_letter {n : Nat} (h : 0x41 ≤ n ∧ n ≤ 0x5a ∨ 0x61 ≤ n ∧ n ≤ 0x7a) :
    inRanges caseIgnorableRanges n = false := by
  have hranges : ∀ r ∈ caseIgnorableRanges,
      r.2 < 0x41 ∨ 0x5a < r.1 ∧ r.2 < 0x61 ∨ 0x7a < r.1 := by decide +kernel
  rw [inRanges, List.any_eq_false]
  intro r hr
  have hr := hranges r hr
  simp only [Bool.and_eq_true, decide_eq_true_eq]
  omega

/-- A character and what it is folded to have one lower case. -/
theorem lowerChar_toLower (c : Char) : lowerChar c.toLower = lowerChar c := by
  by_cases hc : IsCapital c
  · exact (of_isCapital hc).2.1
  · rw [toLower_of_not_isCapital hc]

/-- Folding neither makes nor takes away a character that lies before or behind the letters of ASCII. -/
theorem toLower_eq_iff {x : Char} (hx : x.toNat < 0x41 ∨ 0x7a < x.toNat) (c : Char) :
    c.toLower = x ↔ c = x := by
  by_cases hc : IsCapital c
  · have hfolded := (of_isCapital hc).1
    unfold IsCapital at hc
    apply iff_of_false
    · rintro rfl
      omega
    · rintro rfl
      omega
  · rw [toLower_of_not_isCapital hc]

/-- Folding neither makes nor takes away a capital sigma. -/
theorem toLower_eq_sigma_iff (c : Char) : c.toLower = 'Σ' ↔ c = 'Σ' :=
  toLower_eq_iff (by decide) c

/-- Folding changes nothing in what comes first, cased characters or others. -/
theorem meetsCased_map_toLower (cs : List Char) : meetsCased (cs.map Char.toLower) = meetsCased cs := by
  have hignorable (c : Char) : inRanges caseIgnorableRanges c.toLower.toNat =
      inRanges caseIgnorableRanges c.toNat := by
    by_cases hc : IsCapital c
    · have hfolded := (of_isCapital hc).1
      unfold IsCapital at hc
      rw [not_ignorable_of_letter (by omega), not_ignorable_of_letter (by omega)]
    · rw [toLower_of_not_isCapital hc]
  have hcased (c : Char) : inRanges casedRanges c.toLower.toNat = inRanges casedRanges c.toNat := by
    by_cases hc : IsCapital c
    · rw [(of_isCapital hc).2.2.1, (of_isCapital hc).2.2.2]
    · rw [toLower_of_not_isCapital hc]
  unfold meetsCased
  rw [List.dropWhile_map]
  simp only [Function.comp_def, hignorable]
  cases cs.dropWhile fun c => inRanges caseIgnorableRanges c.toNat with
  | nil => rfl
  | cons c rest => exact hcased c

/-- Text that is folded, after text that is folded, has the lower case that it has without. -/
theorem lowerAfter_map_toLower (before cs : List Char) :
    lowerAfter (before.map Char.toLower) (cs.map Char.toLower) = lowerAfter before cs := by
  induction cs generalizing before with
  | nil => rfl
  | cons c rest ih =>
    have hrest := ih (c :: before)
    rw [List.map_cons] at hrest ⊢
    by_cases hsigma : c = 'Σ'
    · subst hsigma
      have hkept : 'Σ'.toLower = 'Σ' := (toLower_eq_sigma_iff 'Σ').2 rfl
      rw [hkept] at hrest ⊢
      rw [lowerAfter, lowerAfter, hrest, meetsCased_map_toLower, meetsCased_map_toLower]
    · rw [lowerAfter, lowerAfter, hrest, lowerChar_toLower]
      · exact hsigma
      · exact fun h => hsigma ((toLower_eq_sigma_iff c).1 h)

/-- Strings that are one up to the case of ASCII letters are one in lower case. -/
theorem lowerString_eq_of_foldAscii_eq {s t : String} (h : foldAscii s = foldAscii t) :
    lowerString s = lowerString t := by
  have hmap : s.toList.map Char.toLower = t.toList.map Char.toLower := String.ofList_injective h
  have hlower (cs : List Char) : lower (cs.map Char.toLower) = lower cs :=
    lowerAfter_map_toLower [] cs
  rw [lowerString, lowerString, ← hlower s.toList, hmap, hlower]

end Imageboard.Text
