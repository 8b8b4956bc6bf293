import Imageboard.Proofs.Text.Casing

/-!
# Lower case and what it keeps

Lowering puts a piece of text in the place of each character, and the only choice in it is the form
of a capital sigma. What is in lower case stays as it is, so lowering twice is lowering once; and the
characters that have no case stay where they are and come about nowhere else.
-/

namespace Imageboard.Text

/-- Whether a piece of text can stand for a character in lower case; a capital sigma has two
forms. -/
def StandsIn (c : Char) (piece : List Char) : Prop :=
  if c = 'Σ' then piece = ['σ'] ∨ piece = ['ς'] else piece = lowerChar c

/-- Text in lower case, up to the forms of sigmas. -/
inductive Lowered : List Char → List Char → Prop where
  /-- Nothing is lowered to nothing. -/
  | nil : Lowered [] []
  /-- Each character is lowered by itself. -/
  | cons {c : Char} {piece cs ds : List Char} (hpiece : StandsIn c piece) (h : Lowered cs ds) :
    Lowered (c :: cs) (piece ++ ds)

/-- The lower case of text is text in lower case. -/
theorem lowered_lowerAfter (before cs : List Char) : Lowered cs (lowerAfter before cs) := by
  induction cs generalizing before with
  | nil => exact .nil
  | cons c rest ih =>
    by_cases hsigma : c = 'Σ'
    · subst hsigma
      rw [lowerAfter]
      have hpiece : StandsIn 'Σ' [if meetsCased before && !meetsCased rest then 'ς' else 'σ'] := by
        rw [StandsIn, if_pos rfl]
        split <;> simp
      exact .cons hpiece (ih _)
    · rw [lowerAfter]
      · exact .cons (by rw [StandsIn, if_neg hsigma]) (ih _)
      · exact hsigma

/-- The lower case of text is text in lower case. -/
theorem lowered_lower (cs : List Char) : Lowered cs (lower cs) :=
  lowered_lowerAfter [] cs

/-- What stands for a character is settled. -/
theorem StandsIn.settled {c d : Char} {piece : List Char} (h : StandsIn c piece) (hd : d ∈ piece) :
    Settled d := by
  unfold StandsIn at h
  split at h
  · rcases h with rfl | rfl <;> obtain rfl := List.mem_singleton.1 hd <;>
      exact settled_of_not_upper (isUpperPoint_special.2 _ (by simp)) (by decide)
  · exact settled_of_mem_lowerChar (h ▸ hd)

/-- Something stands for each character. -/
theorem StandsIn.ne_nil {c : Char} {piece : List Char} (h : StandsIn c piece) : piece ≠ [] := by
  unfold StandsIn at h
  split at h
  · rcases h with rfl | rfl <;> simp
  · rw [h]
    by_cases hdotted : c = 'İ'
    · simp [lowerChar, hdotted]
    · simp [lowerChar_eq hdotted]

/-- A caseless character stands for itself and for no other. -/
theorem StandsIn.mem_iff {c x : Char} {piece : List Char} (h : StandsIn c piece)
    (hx : isCaseless x = true) : x ∈ piece ↔ c = x := by
  unfold StandsIn at h
  split at h
  next hsigma =>
    subst hsigma
    have hnone : ∀ y ∈ ['i', 'Σ', 'σ', 'ς'], x ≠ y := by
      rintro y hy rfl
      rw [isCaseless_special.2 x hy] at hx
      cases hx
    simp only [List.mem_cons, List.not_mem_nil, or_false, forall_eq_or_imp, forall_eq] at hnone
    rcases h with rfl | rfl <;> simp [hnone, Ne.symm hnone.2.1]
  next => rw [h, mem_lowerChar_iff hx]

/-- What stands for a caseless character is that character. -/
theorem StandsIn.eq_of_caseless {x : Char} {piece : List Char} (h : StandsIn x piece)
    (hx : isCaseless x = true) : piece = [x] := by
  unfold StandsIn at h
  split at h
  next hsigma =>
    rw [hsigma, isCaseless_special.2 'Σ' (by simp)] at hx
    cases hx
  next => rw [h, lowerChar_of_caseless hx]

namespace Lowered

variable {cs ds : List Char} {x : Char}

/-- Text in lower case is settled. -/
theorem settled (h : Lowered cs ds) : ∀ d ∈ ds, Settled d := by
  induction h with
  | nil => simp
  | cons hpiece _ ih =>
    intro d hd
    rcases List.mem_append.1 hd with hd | hd
    · exact hpiece.settled hd
    · exact ih d hd

/-- A caseless character is in the text before and after, or in neither. -/
theorem mem_iff (h : Lowered cs ds) (hx : isCaseless x = true) : x ∈ ds ↔ x ∈ cs := by
  induction h with
  | nil => rfl
  | cons hpiece _ ih => rw [List.mem_append, List.mem_cons, hpiece.mem_iff hx, ih, eq_comm]

/-- Text is empty before and after, or neither. -/
theorem eq_nil_iff (h : Lowered cs ds) : ds = [] ↔ cs = [] := by
  cases h with
  | nil => simp
  | cons hpiece _ => simp [hpiece.ne_nil]

/-- Text is not shortened. -/
theorem length_le (h : Lowered cs ds) : cs.length ≤ ds.length := by
  induction h with
  | nil => exact Nat.le_refl _
  | cons hpiece _ ih =>
    have hpos := List.length_pos_iff.2 hpiece.ne_nil
    rw [List.length_append, List.length_cons]
    omega

/-- Text in two parts is lowered in two parts. -/
theorem of_append {as bs : List Char} (h : Lowered (as ++ bs) ds) :
    ∃ us vs, ds = us ++ vs ∧ Lowered as us ∧ Lowered bs vs := by
  induction as generalizing ds with
  | nil => exact ⟨[], ds, rfl, .nil, h⟩
  | cons c rest ih =>
    cases h with
    | @cons _ piece _ ds hpiece h =>
      obtain ⟨us, vs, rfl, hus, hvs⟩ := ih h
      exact ⟨piece ++ us, vs, by rw [List.append_assoc], .cons hpiece hus, hvs⟩

/-- Text that is cut at a caseless character is cut there after. -/
theorem of_append_cons (hx : isCaseless x = true) {as bs : List Char}
    (h : Lowered (as ++ x :: bs) ds) :
    ∃ us vs, ds = us ++ x :: vs ∧ Lowered as us ∧ Lowered bs vs := by
  induction as generalizing ds with
  | nil =>
    cases h with
    | @cons _ piece _ vs hpiece h =>
      rw [hpiece.eq_of_caseless hx]
      exact ⟨[], vs, rfl, .nil, h⟩
  | cons c rest ih =>
    cases h with
    | @cons _ piece _ ds hpiece h =>
      obtain ⟨us, vs, rfl, hus, hvs⟩ := ih h
      exact ⟨piece ++ us, vs, by rw [List.append_assoc], .cons hpiece hus, hvs⟩

/-- Text that is cut at a caseless character after was cut there before. -/
theorem of_eq_append_cons (hx : isCaseless x = true) {us vs : List Char}
    (h : Lowered cs (us ++ x :: vs)) :
    ∃ as bs, cs = as ++ x :: bs ∧ Lowered as us ∧ Lowered bs vs := by
  generalize heq : us ++ x :: vs = ds at h
  induction h generalizing us with
  | nil => simp at heq
  | @cons c piece cs ds hpiece h ih =>
    by_cases hc : c = x
    · subst hc
      rw [hpiece.eq_of_caseless hx] at heq
      cases us with
      | nil =>
        obtain ⟨-, rfl⟩ := List.cons.inj heq
        exact ⟨[], cs, rfl, .nil, h⟩
      | cons u us =>
        obtain ⟨rfl, htail⟩ := List.cons.inj heq
        obtain ⟨as, bs, rfl, has, hbs⟩ := ih htail
        have hu : StandsIn u [u] := by rwa [hpiece.eq_of_caseless hx] at hpiece
        exact ⟨u :: as, bs, rfl, .cons hu has, hbs⟩
    · -- the cut cannot lie inside of the piece, so the piece lies before it
      have hbefore : ∃ rest, us = piece ++ rest ∧ rest ++ x :: vs = ds := by
        rcases List.append_eq_append_iff.1 heq with ⟨inside, hsplit, hrest⟩ | ⟨rest, hsplit, hrest⟩
        · cases inside with
          | nil => exact ⟨[], by simpa using hsplit.symm, by simpa using hrest⟩
          | cons y inside =>
            obtain ⟨rfl, -⟩ := List.cons.inj hrest
            exact absurd ((hpiece.mem_iff hx).1 (by simp [hsplit])) hc
        · exact ⟨rest, hsplit, hrest.symm⟩
      obtain ⟨rest, rfl, hrest⟩ := hbefore
      obtain ⟨as, bs, rfl, has, hbs⟩ := ih hrest
      exact ⟨c :: as, bs, rfl, .cons hpiece has, hbs⟩

end Lowered

/-- Text that is settled is its own lower case. -/
theorem lowerAfter_eq_self {before cs : List Char} (h : ∀ c ∈ cs, Settled c) :
    lowerAfter before cs = cs := by
  induction cs generalizing before with
  | nil => rfl
  | cons c rest ih =>
    obtain ⟨hkept, hsigma⟩ := h c List.mem_cons_self
    rw [lowerAfter, hkept, ih fun d hd => h d (List.mem_cons_of_mem _ hd)]
    · rfl
    · exact hsigma

/-- Text in lower case is its own lower case. -/
theorem Lowered.lower_eq {cs ds : List Char} (h : Lowered cs ds) : lower ds = ds :=
  lowerAfter_eq_self h.settled

/-- Lowering twice is lowering once. -/
theorem lower_lower (cs : List Char) : lower (lower cs) = lower cs :=
  (lowered_lower cs).lower_eq

/-- A string in lower case stays as it is. -/
theorem lowerString_lowerString (s : String) : lowerString (lowerString s) = lowerString s := by
  rw [lowerString, lowerString, String.toList_ofList, lower_lower]

/-- Whether a text has one of the small sigmas. -/
def hasSigma (cs : List Char) : Bool :=
  cs.contains 'σ' || cs.contains 'ς'

/-- Two forms of one text in lower case differ in their sigmas only. -/
theorem Lowered.eq_of_not_hasSigma {cs ds es : List Char} (hds : Lowered cs ds) (hes : Lowered cs es)
    (hsigma : hasSigma ds = false) : es = ds := by
  induction hds generalizing es with
  | nil =>
    cases hes
    rfl
  | @cons c piece cs ds hpiece h ih =>
    cases hes with
    | @cons _ other _ es hother h' =>
      simp only [hasSigma, List.contains_eq_mem, List.mem_append, Bool.or_eq_false_iff,
        decide_eq_false_iff_not, not_or] at hsigma ih
      rw [ih h' ⟨hsigma.1.2, hsigma.2.2⟩]
      unfold StandsIn at hpiece hother
      split at hpiece
      · rcases hpiece with rfl | rfl
        · exact absurd (List.mem_singleton.2 rfl) hsigma.1.1
        · exact absurd (List.mem_singleton.2 rfl) hsigma.2.1
      next hc =>
        rw [if_neg hc] at hother
        rw [hpiece, hother]

/-- A text in lower case is a word without sigmas exactly if any other form of it is. -/
theorem Lowered.eq_iff {cs ds es word : List Char} (hds : Lowered cs ds) (hes : Lowered cs es)
    (hword : hasSigma word = false) : ds = word ↔ es = word := by
  constructor
  · rintro rfl
    exact hds.eq_of_not_hasSigma hes hword
  · rintro rfl
    exact hes.eq_of_not_hasSigma hds hword

/-! ## Marks in front -/

/-- Whether a character has no part in the form of the sigmas around it but to end words. -/
def endsWord (c : Char) : Bool :=
  !inRanges caseIgnorableRanges c.toNat && !inRanges casedRanges c.toNat

/-- What lies beyond the end of a word has no part in its sigmas. -/
theorem meetsCased_append {before : List Char} {x : Char} (hx : endsWord x = true) :
    meetsCased (before ++ [x]) = meetsCased before := by
  simp only [endsWord, Bool.and_eq_true, Bool.not_eq_true'] at hx
  unfold meetsCased
  induction before with
  | nil => simp [List.dropWhile, hx.1, hx.2]
  | cons c rest ih =>
    rw [List.cons_append, List.dropWhile_cons, List.dropWhile_cons]
    by_cases hc : inRanges caseIgnorableRanges c.toNat = true
    · rw [if_pos hc, if_pos hc]
      exact ih
    · rw [if_neg hc, if_neg hc]

/-- A mark in front of text changes nothing in it. -/
theorem lowerAfter_append {before cs : List Char} {x : Char} (hx : endsWord x = true) :
    lowerAfter (before ++ [x]) cs = lowerAfter before cs := by
  induction cs generalizing before with
  | nil => rfl
  | cons c rest ih =>
    by_cases hsigma : c = 'Σ'
    · subst hsigma
      rw [lowerAfter, lowerAfter, meetsCased_append hx, ← List.cons_append, ih]
    · rw [lowerAfter, lowerAfter, ← List.cons_append, ih]
      · exact hsigma
      · exact hsigma

/-- A caseless character is kept. -/
theorem lowerAfter_cons {before cs : List Char} {x : Char} (hx : isCaseless x = true) :
    lowerAfter before (x :: cs) = x :: lowerAfter (x :: before) cs := by
  have hsigma : x ≠ 'Σ' := by
    rintro rfl
    rw [isCaseless_special.2 'Σ' (by simp)] at hx
    cases hx
  rw [lowerAfter, lowerChar_of_caseless hx]
  · rfl
  · exact hsigma

/-- A caseless mark in front is kept, and the rest is lowered by itself. -/
theorem lower_cons {cs : List Char} {x : Char} (hx : isCaseless x = true) (hends : endsWord x = true) :
    lower (x :: cs) = x :: lower cs := by
  have hrest : lowerAfter ([] ++ [x]) cs = lowerAfter [] cs := lowerAfter_append hends
  rw [lower, lowerAfter_cons hx]
  exact congrArg (x :: ·) hrest

end Imageboard.Text
