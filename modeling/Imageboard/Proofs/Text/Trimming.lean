import Imageboard.Proofs.Text.Endings
import Mathlib.Data.List.Induction

/-!
# Trimming and lower case

Blanks have no case and end words, so they are kept by lowering and have no part in the sigmas of the text
between them. Trimming and lowering can be done in either order.
-/

namespace Imageboard.Text

variable {before cs : List Char} {x : Char}

/-- Blanks end words. -/
theorem endsWord_of_isBlank (h : isBlank x = true) : endsWord x = true := by
  have htable : ∀ r ∈ blankRanges, ∀ n ∈ runPoints (r.1, r.2, 1, 0), endsWord (Char.ofNat n) = true := by
    decide +kernel
  obtain ⟨r, hr, hpoint⟩ := exists_mem_runPoints_of_isBlank h
  have hx := htable r hr _ hpoint
  rwa [Char.ofNat_toNat] at hx

/-- A caseless mark behind text is kept, and the text is lowered by itself. -/
theorem lowerAfter_concat (hx : isCaseless x = true) (hends : endsWord x = true) :
    lowerAfter before (cs ++ [x]) = lowerAfter before cs ++ [x] := by
  induction cs generalizing before with
  | nil => exact lowerAfter_cons hx
  | cons c rest ih =>
    rw [List.cons_append]
    by_cases hsigma : c = 'Σ'
    · subst hsigma
      rw [lowerAfter, lowerAfter, meetsCased_append hends, ih, List.cons_append]
    · rw [lowerAfter, lowerAfter, ih, List.append_assoc]
      · exact hsigma
      · exact hsigma

/-- Nothing in what stands for a character that is not blank is blank. -/
theorem StandsIn.not_isBlank {c d : Char} {piece : List Char} (h : StandsIn c piece)
    (hc : ¬ isBlank c = true) (hd : d ∈ piece) : ¬ isBlank d = true := by
  intro hblank
  rw [(h.mem_iff (isCaseless_of_isBlank hblank)).1 hd] at hc
  exact hc hblank

/-- Blanks in front can be dropped before lowering or after it. -/
theorem lower_trimStart (cs : List Char) : lower (trimStart cs) = trimStart (lower cs) := by
  induction cs with
  | nil => rfl
  | cons c rest ih =>
    by_cases hc : isBlank c = true
    · rw [lower_cons (isCaseless_of_isBlank hc) (endsWord_of_isBlank hc), trimStart, trimStart,
        List.dropWhile_cons_of_pos hc, List.dropWhile_cons_of_pos hc]
      exact ih
    · rw [trimStart, List.dropWhile_cons_of_neg hc]
      have hlower := lowered_lower (c :: rest)
      generalize lower (c :: rest) = all at hlower ⊢
      cases hlower with
      | @cons _ piece _ ds hpiece _ =>
        obtain ⟨d, tail, rfl⟩ := List.exists_cons_of_ne_nil hpiece.ne_nil
        rw [trimStart, List.cons_append,
          List.dropWhile_cons_of_neg (hpiece.not_isBlank hc List.mem_cons_self)]

/-- Whether the last character is dropped is decided by it alone. -/
theorem trimEnd_concat (cs : List Char) (x : Char) :
    trimEnd (cs ++ [x]) = if isBlank x = true then trimEnd cs else cs ++ [x] := by
  rw [trimEnd, List.reverse_concat, trimStart, List.dropWhile_cons]
  split
  · rfl
  · rw [List.reverse_cons, List.reverse_reverse]

/-- Blanks behind can be dropped before lowering or after it. -/
theorem lower_trimEnd (cs : List Char) : lower (trimEnd cs) = trimEnd (lower cs) := by
  induction cs using List.reverseRecOn with
  | nil => rfl
  | append_singleton cs x ih =>
    by_cases hx : isBlank x = true
    · have hlower : lower (cs ++ [x]) = lower cs ++ [x] :=
        lowerAfter_concat (isCaseless_of_isBlank hx) (endsWord_of_isBlank hx)
      rw [trimEnd_concat, if_pos hx, hlower, trimEnd_concat, if_pos hx, ih]
    · rw [trimEnd_concat, if_neg hx]
      obtain ⟨us, piece, hlower, hpiece⟩ := (lowered_lower (cs ++ [x])).of_concat
      obtain ⟨init, last, rfl⟩ := (List.eq_nil_or_concat piece).resolve_left hpiece.ne_nil
      rw [hlower, List.concat_eq_append, ← List.append_assoc, trimEnd_concat,
        if_neg (hpiece.not_isBlank hx (by simp))]

/-- Text can be trimmed before it is lowered or after. -/
theorem lower_trim (cs : List Char) : lower (trim cs) = trim (lower cs) := by
  rw [trim, trim, lower_trimEnd, lower_trimStart]

end Imageboard.Text
