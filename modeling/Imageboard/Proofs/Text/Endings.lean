import Imageboard.Proofs.Text.Lowering

/-!
# Words that end in an s

Which form a sigma takes is settled by the nearest character after it that is not ignorable. So a word
that ends in such a character, no sigma itself, has the same lower case whatever follows it, and a word
whose lower case ends in an s is one of these.
-/

namespace Imageboard.Text

/-- Whether what follows a character has no part in its lower case and in that of the text before
it. -/
def isBarrier (c : Char) : Bool :=
  c != 'Σ' && !inRanges caseIgnorableRanges c.toNat

variable {before cs ds rest : List Char} {c : Char}

/-- Nothing is seen of what lies behind a barrier. -/
theorem meetsCased_append_cons (hc : isBarrier c = true) :
    meetsCased (cs ++ c :: rest) = meetsCased (cs ++ [c]) := by
  simp only [isBarrier, Bool.and_eq_true, Bool.not_eq_true'] at hc
  unfold meetsCased
  induction cs with
  | nil => simp [hc.2]
  | cons d cs ih =>
    rw [List.cons_append, List.cons_append, List.dropWhile_cons, List.dropWhile_cons]
    by_cases hd : inRanges caseIgnorableRanges d.toNat = true
    · rw [if_pos hd, if_pos hd]
      exact ih
    · rw [if_neg hd, if_neg hd]

/-- Up to a barrier text is lowered whatever follows. -/
theorem lowerAfter_append_cons (hc : isBarrier c = true) :
    lowerAfter before (cs ++ c :: rest) =
      lowerAfter before (cs ++ [c]) ++ lowerAfter (c :: (cs.reverse ++ before)) rest := by
  induction cs generalizing before with
  | nil =>
    have hsigma : c ≠ 'Σ' := by
      rintro rfl
      cases hc
    rw [List.nil_append, List.nil_append, lowerAfter, lowerAfter]
    · simp [lowerAfter]
    all_goals exact hsigma
  | cons d cs ih =>
    have hreverse : (d :: cs).reverse ++ before = cs.reverse ++ d :: before := by simp
    rw [List.cons_append, List.cons_append, hreverse]
    by_cases hsigma : d = 'Σ'
    · subst hsigma
      rw [lowerAfter, lowerAfter, meetsCased_append_cons hc, ih, List.cons_append]
    · rw [lowerAfter, lowerAfter, ih, List.append_assoc]
      · exact hsigma
      · exact hsigma

/-- Only the small and the capital s are lowered to text that ends in an s. -/
theorem eq_of_lowerChar_eq_concat (h : lowerChar c = ds ++ ['s']) : c = 's' ∨ c = 'S' := by
  have htable : ∀ r ∈ lowerRuns, ∀ n ∈ runPoints r, (n + r.2.2.2 : Int).toNat = 's'.toNat →
      n = 'S'.toNat := by decide +kernel
  have hdotted : c ≠ 'İ' := by
    rintro rfl
    have hlast := congrArg List.getLast? h
    rw [List.getLast?_concat] at hlast
    cases hlast
  rw [lowerChar_eq hdotted] at h
  obtain ⟨-, hs⟩ := List.append_inj' (show [] ++ [_] = _ from h) rfl
  have hchar : Char.ofNat (lowerPoint c.toNat) = 's' := (List.cons.inj hs).1
  rcases lowerPoint_cases c.toNat with ⟨-, hkept⟩ | ⟨-, himage⟩
  · rw [hkept, Char.ofNat_toNat] at hchar
    exact Or.inl hchar
  · have hpoint : lowerPoint c.toNat = 's'.toNat := by
      rw [← hchar, toNat_ofNat (isValidChar_image himage)]
    unfold lowerPoint at hpoint
    split at hpoint
    next r hr =>
      have hrun := List.mem_of_find?_eq_some hr
      have hfound := List.find?_some hr
      have hmem := (mem_runPoints_iff (first_le_last r hrun)).2 hfound
      rw [← Char.ofNat_toNat c, htable r hrun _ hmem hpoint, Char.ofNat_toNat]
      exact Or.inr rfl
    next =>
      rw [← Char.ofNat_toNat c, hpoint, Char.ofNat_toNat]
      exact Or.inl rfl

/-- Text that is lowered has in the end what stands for its last character. -/
theorem Lowered.of_concat (h : Lowered (cs ++ [c]) ds) :
    ∃ us piece, ds = us ++ piece ∧ StandsIn c piece := by
  generalize heq : cs ++ [c] = all at h
  induction h generalizing cs with
  | nil => simp at heq
  | @cons d piece rest ds hpiece h ih =>
    cases cs with
    | nil =>
      obtain ⟨rfl, rfl⟩ := List.cons.inj heq
      obtain rfl := h.eq_nil_iff.2 rfl
      exact ⟨[], piece, by simp, hpiece⟩
    | cons e cs =>
      obtain ⟨rfl, hrest⟩ := List.cons.inj heq
      obtain ⟨us, last, rfl, hlast⟩ := ih hrest
      exact ⟨piece ++ us, last, by rw [List.append_assoc], hlast⟩

/-- Text whose lower case ends in an s ends in a barrier. -/
theorem Lowered.exists_eq_concat (h : Lowered cs (ds ++ ['s'])) :
    ∃ as c, cs = as ++ [c] ∧ isBarrier c = true := by
  rcases List.eq_nil_or_concat cs with rfl | ⟨as, c, rfl⟩
  · simpa using h.eq_nil_iff.2 rfl
  rw [List.concat_eq_append] at h ⊢
  refine ⟨as, c, rfl, ?_⟩
  obtain ⟨us, piece, heq, hpiece⟩ := h.of_concat
  obtain ⟨init, last, rfl⟩ := (List.eq_nil_or_concat piece).resolve_left hpiece.ne_nil
  rw [List.concat_eq_append, ← List.append_assoc] at heq
  obtain ⟨-, hlast⟩ := List.append_inj' heq rfl
  rw [← (List.cons.inj hlast).1, List.concat_eq_append] at hpiece
  unfold StandsIn at hpiece
  split at hpiece
  · have hs : 's' ∈ init ++ ['s'] := by simp
    rcases hpiece with hpiece | hpiece <;> exact absurd (hpiece ▸ hs) (by decide)
  · rcases eq_of_lowerChar_eq_concat hpiece.symm with rfl | rfl <;> decide +kernel

/-- Whether the texts whose lower case is a word are those that become the word where other text follows
them: it has no sigma, or else ends in an s. -/
def IsSteady (word : List Char) : Prop :=
  hasSigma word = false ∨ ∃ init, word = init ++ ['s']

/-- Text that ends in a barrier is lowered by itself, whatever follows. -/
theorem lower_append_of_barrier (hc : isBarrier c = true) :
    lower (cs ++ [c] ++ rest) = lower (cs ++ [c]) ++ lowerAfter (c :: cs.reverse) rest := by
  rw [List.append_assoc, List.singleton_append, lower, lower, lowerAfter_append_cons hc, List.append_nil]

/-- Where a caseless character follows, text becomes a steady word exactly if its lower case is that
word. -/
theorem IsSteady.eq_iff {word us vs : List Char} {x : Char} (hword : IsSteady word)
    (hx : isCaseless x = true) (hlower : lower (cs ++ x :: rest) = us ++ x :: vs) (hcs : x ∉ cs)
    (hlowered : Lowered cs us) : us = word ↔ lower cs = word := by
  rcases hword with hsigma | ⟨init, rfl⟩
  · exact hlowered.eq_iff (lowered_lower cs) hsigma
  -- Either way the text ends in a barrier, and then it is lowered by itself.
  have hsame (hends : ∃ ds, Lowered cs (ds ++ ['s'])) : us = lower cs := by
    obtain ⟨ds, hds⟩ := hends
    obtain ⟨as, c, rfl, hc⟩ := hds.exists_eq_concat
    have htake (ys zs : List Char) (hys : x ∉ ys) : (ys ++ x :: zs).takeWhile (· != x) = ys := by
      rw [List.takeWhile_append_of_pos fun c hc => by simpa using ne_of_mem_of_not_mem hc hys]
      simp
    rw [lower_append_of_barrier hc, lowerAfter_cons hx] at hlower
    rw [← htake us vs (by rwa [hlowered.mem_iff hx]), ← hlower,
      htake _ _ (by rwa [(lowered_lower _).mem_iff hx])]
  constructor
  · rintro rfl
    exact (hsame ⟨init, hlowered⟩).symm
  · intro h
    rw [hsame ⟨init, h ▸ lowered_lower cs⟩, h]

end Imageboard.Text
