/-!
# Blank characters

Words of a query, a tag name or a script line are separated by blanks: the Unicode space
separators together with the control characters that break lines or columns. This module holds
that class and the ways text is cut along it: trimming both ends, squeezing each run of blanks into
one space, and splitting into words. The lemmas say that trimming and squeezing leave text without
blanks alone and that no word contains a blank.
-/

namespace Imageboard.Text

/-- The inclusive code point ranges of the blanks. -/
def blankRanges : List (Nat × Nat) :=
  [(0x09, 0x0d), (0x1c, 0x20), (0x85, 0x85), (0xa0, 0xa0), (0x1680, 0x1680), (0x2000, 0x200a),
   (0x2028, 0x2029), (0x202f, 0x202f), (0x205f, 0x205f), (0x3000, 0x3000)]

/-- Whether a code point lies in one of some inclusive ranges. -/
def inRanges (ranges : List (Nat × Nat)) (n : Nat) : Bool :=
  ranges.any fun r => r.1 ≤ n && n ≤ r.2

/-- Whether a character separates words. -/
def isBlank (c : Char) : Bool :=
  inRanges blankRanges c.toNat

/-- The space is a blank. -/
theorem isBlank_space : isBlank ' ' = true := by decide

/-- Drops the blanks at the front. -/
def trimStart (cs : List Char) : List Char :=
  cs.dropWhile isBlank

/-- Drops the blanks at the back. -/
def trimEnd (cs : List Char) : List Char :=
  (trimStart cs.reverse).reverse

/-- Drops the blanks at both ends. -/
def trim (cs : List Char) : List Char :=
  trimEnd (trimStart cs)

/-- Replaces each run of blanks by one space; `within` tells that the run has begun already. -/
def squeezeFrom (within : Bool) : List Char → List Char
  | [] => []
  | c :: rest =>
    if isBlank c then
      if within then squeezeFrom true rest else ' ' :: squeezeFrom true rest
    else c :: squeezeFrom false rest

/-- Replaces each run of blanks by one space. -/
def squeeze (cs : List Char) : List Char :=
  squeezeFrom false cs

/-- Cuts text at every single blank, keeping empty pieces. -/
def pieces : List Char → List (List Char)
  | [] => [[]]
  | c :: rest =>
    if isBlank c then [] :: pieces rest
    else match pieces rest with
      | [] => [[c]]
      | piece :: more => (c :: piece) :: more

/-- The maximal runs of characters that are not blank. -/
def words (cs : List Char) : List (List Char) :=
  (pieces cs).filter (!·.isEmpty)

/-- Text without blanks is its own trimmed form. -/
theorem trimStart_eq_self {cs : List Char} (h : ∀ c ∈ cs, isBlank c = false) :
    trimStart cs = cs := by
  cases cs with
  | nil => rfl
  | cons c rest => simp [trimStart, h c (by simp)]

/-- Text without blanks is its own trimmed form. -/
theorem trim_eq_self {cs : List Char} (h : ∀ c ∈ cs, isBlank c = false) : trim cs = cs := by
  have hrev : ∀ c ∈ cs.reverse, isBlank c = false := fun c hc => h c (by simpa using hc)
  simp [trim, trimEnd, trimStart_eq_self h, trimStart_eq_self hrev]

/-- Text without blanks has nothing to squeeze. -/
theorem squeezeFrom_eq_self (within : Bool) {cs : List Char}
    (h : ∀ c ∈ cs, isBlank c = false) : squeezeFrom within cs = cs := by
  induction cs generalizing within with
  | nil => rfl
  | cons c rest ih =>
    have hc : isBlank c = false := h c (by simp)
    simp only [squeezeFrom, hc, Bool.false_eq_true, ↓reduceIte]
    rw [ih false fun x hx => h x (by simp [hx])]

/-- The only blank that squeezing leaves is the space. -/
theorem eq_space_of_mem_squeezeFrom (within : Bool) {cs : List Char} {c : Char}
    (hc : c ∈ squeezeFrom within cs) (hblank : isBlank c = true) : c = ' ' := by
  induction cs generalizing within with
  | nil => simp [squeezeFrom] at hc
  | cons d rest ih =>
    simp only [squeezeFrom] at hc
    split at hc
    · split at hc
      · exact ih true hc
      · rcases List.mem_cons.mp hc with rfl | hrest
        · rfl
        · exact ih true hrest
    · rename_i hd
      rcases List.mem_cons.mp hc with rfl | hrest
      · exact absurd hblank hd
      · exact ih false hrest

/-- No piece holds a blank. -/
theorem isBlank_eq_false_of_mem_pieces {cs piece : List Char} (hpiece : piece ∈ pieces cs)
    {c : Char} (hc : c ∈ piece) : isBlank c = false := by
  induction cs generalizing piece with
  | nil => simp only [pieces, List.mem_singleton] at hpiece; simp [hpiece] at hc
  | cons d rest ih =>
    simp only [pieces] at hpiece
    split at hpiece
    · rcases List.mem_cons.mp hpiece with rfl | hmem
      · simp at hc
      · exact ih hmem hc
    · rename_i hd
      split at hpiece
      · simp only [List.mem_singleton] at hpiece
        subst hpiece
        simp only [List.mem_singleton] at hc
        subst hc
        simpa using hd
      · rename_i first more hfirst
        rcases List.mem_cons.mp hpiece with rfl | hmem
        · rcases List.mem_cons.mp hc with rfl | hin
          · simpa using hd
          · exact ih (by simp [hfirst]) hin
        · exact ih (by simp [hfirst, hmem]) hc

/-- No word holds a blank, and no word is empty. -/
theorem word_of_mem_words {cs word : List Char} (hword : word ∈ words cs) :
    word ≠ [] ∧ ∀ c ∈ word, isBlank c = false := by
  simp only [words, List.mem_filter, Bool.not_eq_true', List.isEmpty_eq_false_iff] at hword
  exact ⟨hword.2, fun c hc => isBlank_eq_false_of_mem_pieces hword.1 hc⟩

end Imageboard.Text
