import Imageboard.Text.Pattern

/-!
# Wildcards in tag patterns

A tag pattern has two wildcards, `*` for any run of characters and `?` for any one, and every other
character, brackets included, stands for itself. This reading is stated here by itself, as a relation,
and escaping for glob patterns is shown to produce exactly it. Text ends at its first null character
on both sides.
-/

namespace Imageboard.Text

/-- Whether a text is an instance of a pattern with wildcards. -/
inductive Instance : List Char → List Char → Prop where
  /-- Nothing is an instance of nothing. -/
  | nil : Instance [] []
  /-- A star stands for any run of characters. -/
  | run {pattern text : List Char} (skipped : List Char) (h : Instance pattern text) :
    Instance ('*' :: pattern) (skipped ++ text)
  /-- A question mark stands for any one character. -/
  | one {pattern text : List Char} (c : Char) (h : Instance pattern text) :
    Instance ('?' :: pattern) (c :: text)
  /-- Any other character stands for itself. -/
  | same {pattern text : List Char} {c : Char} (hstar : c ≠ '*') (hmark : c ≠ '?')
    (h : Instance pattern text) : Instance (c :: pattern) (c :: text)

/-- A character that stands for itself is in every instance. -/
theorem Instance.mem {pattern text : List Char} {c : Char} (h : Instance pattern text)
    (hc : c ∈ pattern) (hstar : c ≠ '*') (hmark : c ≠ '?') : c ∈ text := by
  induction h with
  | nil => exact hc
  | run skipped _ ih =>
    exact List.mem_append_right _ (ih ((List.mem_cons.1 hc).resolve_left hstar))
  | one d _ ih => exact List.mem_cons_of_mem _ (ih ((List.mem_cons.1 hc).resolve_left hmark))
  | same _ _ _ ih =>
    simp only [List.mem_cons] at hc ⊢
    exact hc.imp_right ih

/-- The instances of a star and a pattern end with an instance of the pattern. -/
theorem instance_star_iff {pattern text : List Char} :
    Instance ('*' :: pattern) text ↔ ∃ skipped rest, text = skipped ++ rest ∧ Instance pattern rest := by
  constructor
  · intro h
    generalize hstarred : '*' :: pattern = starred at h
    cases h with
    | nil => cases hstarred
    | run skipped h =>
      obtain ⟨-, rfl⟩ := List.cons.inj hstarred
      exact ⟨skipped, _, rfl, h⟩
    | one c h => exact absurd (List.cons.inj hstarred).1 (by decide)
    | same hstar => exact absurd (List.cons.inj hstarred).1.symm hstar
  · rintro ⟨skipped, rest, rfl, h⟩
    exact .run skipped h

/-- The instances of another character and a pattern begin with a character that it stands for. -/
theorem instance_cons_iff {pattern text : List Char} {c : Char} (hstar : c ≠ '*') :
    Instance (c :: pattern) text ↔
      ∃ d rest, text = d :: rest ∧ (c = '?' ∨ c = d) ∧ Instance pattern rest := by
  constructor
  · intro h
    generalize hmarked : c :: pattern = marked at h
    cases h with
    | nil => cases hmarked
    | run => exact absurd (List.cons.inj hmarked).1 hstar
    | one d h =>
      obtain ⟨rfl, rfl⟩ := List.cons.inj hmarked
      exact ⟨d, _, rfl, Or.inl rfl, h⟩
    | same _ _ h =>
      obtain ⟨rfl, rfl⟩ := List.cons.inj hmarked
      exact ⟨c, _, rfl, Or.inr rfl, h⟩
  · rintro ⟨d, rest, rfl, hstands, h⟩
    by_cases hmark : c = '?'
    · subst hmark
      exact .one d h
    · obtain rfl := hstands.resolve_left hmark
      exact .same hstar hmark h

/-- The atom that a character of an escaped pattern is read as. -/
def escapedAtom (c : Char) : Atom :=
  if c = '*' then .anyRun
  else if c = '?' then .anyOne
  else if c = '[' then .oneOf false [('[', '[')]
  else .exactly c

/-- An escaped bracket is read back as a class of itself alone. -/
theorem readGlobClass_escaped (rest : List Char) :
    readGlobClass ('[' :: ']' :: rest) = some (.oneOf false [('[', '[')], rest) := by
  simp [readGlobClass, readClass]

/-- An escaped pattern is read character by character. -/
theorem readGlob_escapeGlob (pattern : List Char) (fuel : Nat) (hfuel : pattern.length ≤ fuel) :
    readGlob fuel (escapeGlob pattern) = some (pattern.map escapedAtom) := by
  induction pattern generalizing fuel with
  | nil => cases fuel <;> rfl
  | cons c rest ih =>
    cases fuel with
    | zero => simp at hfuel
    | succ fuel =>
      have hrest := ih fuel (by simpa using hfuel)
      have hcons : escapeGlob (c :: rest) =
          (if c = '[' then ['[', '[', ']'] else [c]) ++ escapeGlob rest := rfl
      rw [hcons, List.map_cons, escapedAtom]
      by_cases hstar : c = '*'
      · subst hstar
        simp [readGlob, hrest]
      by_cases hmark : c = '?'
      · subst hmark
        simp [readGlob, hrest]
      by_cases hbracket : c = '['
      · subst hbracket
        simp [readGlob, readGlobClass_escaped, hrest]
      · simp [readGlob, hstar, hmark, hbracket, hrest]

/-- Escaping adds no null character and keeps what comes before one. -/
theorem beforeNull_escapeGlob (pattern : List Char) :
    beforeNull (escapeGlob pattern) = escapeGlob (beforeNull pattern) := by
  induction pattern with
  | nil => rfl
  | cons c rest ih =>
    unfold beforeNull at ih ⊢
    by_cases hbracket : c = '['
    · subst hbracket
      simpa [escapeGlob, List.takeWhile_cons] using ih
    · by_cases hnull : c.toNat = 0
      · simp [escapeGlob, hbracket, hnull]
      · simpa [escapeGlob, hbracket, List.takeWhile_cons, hnull] using ih

/-- Escaping does not shorten. -/
theorem length_le_length_escapeGlob (pattern : List Char) :
    pattern.length ≤ (escapeGlob pattern).length := by
  induction pattern with
  | nil => simp [escapeGlob]
  | cons c rest ih =>
    simp only [escapeGlob, List.flatMap_cons, List.length_append, List.length_cons] at ih ⊢
    split <;> simp only [List.length_cons, List.length_nil] <;> omega

/-- An atom that reads one character accepts what the character of the pattern stands for. -/
theorem accepts_escapedAtom {c d : Char} (hstar : c ≠ '*') :
    (escapedAtom c).accepts (· == ·) d = true ↔ c = '?' ∨ c = d := by
  unfold escapedAtom
  rw [if_neg hstar]
  by_cases hmark : c = '?'
  · simp [hmark, Atom.accepts]
  · rw [if_neg hmark]
    by_cases hbracket : c = '['
    · subst hbracket
      simp only [if_true, Atom.accepts, List.any_cons, List.any_nil, Bool.or_false, Bool.bne_false,
        Bool.and_eq_true, decide_eq_true_eq, hmark, false_or]
      exact ⟨fun h => Char.le_antisymm h.1 h.2, fun h => h ▸ ⟨Char.le_refl _, Char.le_refl _⟩⟩
    · simp [hbracket, hmark, Atom.accepts]

/-- A run followed by a pattern covers a text if the pattern covers an end of it. -/
theorem covers_anyRun_iff {same : Char → Char → Bool} {atoms : List Atom} {text : List Char} :
    covers same (.anyRun :: atoms) text = true ↔
      ∃ skipped rest, text = skipped ++ rest ∧ covers same atoms rest = true := by
  induction text with
  | nil =>
    rw [covers]
    constructor
    · exact fun h => ⟨[], [], rfl, h⟩
    · rintro ⟨skipped, rest, heq, h⟩
      obtain ⟨-, rfl⟩ := List.append_eq_nil_iff.1 heq.symm
      exact h
  | cons c text ih =>
    rw [covers, Bool.or_eq_true, ih]
    constructor
    · rintro (h | ⟨skipped, rest, rfl, h⟩)
      · exact ⟨[], c :: text, rfl, h⟩
      · exact ⟨c :: skipped, rest, rfl, h⟩
    · rintro ⟨skipped, rest, heq, h⟩
      cases skipped with
      | nil => exact Or.inl (by rwa [heq])
      | cons d skipped =>
        obtain ⟨-, htail⟩ := List.cons.inj heq
        exact Or.inr ⟨skipped, rest, htail, h⟩

/-- The atoms of an escaped pattern cover the instances of the pattern. -/
theorem covers_escaped_iff (pattern text : List Char) :
    covers (· == ·) (pattern.map escapedAtom) text = true ↔ Instance pattern text := by
  induction pattern generalizing text with
  | nil =>
    rw [List.map_nil, covers, List.isEmpty_iff]
    constructor
    · rintro rfl
      exact .nil
    · intro h
      cases h
      rfl
  | cons c rest ih =>
    rw [List.map_cons]
    by_cases hstar : c = '*'
    · subst hstar
      change covers _ (.anyRun :: rest.map escapedAtom) text = true ↔ _
      simp only [covers_anyRun_iff, instance_star_iff, ih]
    · have hsingle : escapedAtom c ≠ .anyRun := by
        unfold escapedAtom
        rw [if_neg hstar]
        split
        · simp
        · split <;> simp
      rw [instance_cons_iff hstar]
      cases text with
      | nil =>
        rw [covers]
        · simp
        · exact hsingle
      | cons d text =>
        rw [covers]
        · rw [Bool.and_eq_true, accepts_escapedAtom hstar, ih]
          constructor
          · exact fun h => ⟨d, text, rfl, h⟩
          · rintro ⟨e, tail, heq, h⟩
            obtain ⟨rfl, rfl⟩ := List.cons.inj heq
            exact h
        · exact hsingle

/-- A text matches an escaped pattern if, both taken up to their first null characters, it is an
instance of the pattern. -/
theorem globMatches_escapeGlob_iff (pattern text : List Char) :
    globMatches (escapeGlob pattern) text = true ↔ Instance (beforeNull pattern) (beforeNull text) := by
  have hread := readGlob_escapeGlob (beforeNull pattern) _ (length_le_length_escapeGlob _)
  unfold globMatches
  rw [beforeNull_escapeGlob]
  simp only [hread]
  exact covers_escaped_iff _ _

end Imageboard.Text
