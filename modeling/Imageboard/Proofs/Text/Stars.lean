import Imageboard.Proofs.Text.Folding
import Imageboard.Proofs.Text.Wildcards
import Mathlib.Data.List.TakeWhile

/-!
# Patterns with stars alone

In a pattern for sources the star stands for any run of characters and every other character for itself.
This reading is stated here by itself, and escaping for like patterns is shown to produce exactly it, up to
the case of ASCII letters and up to the first null characters. A star behind a pattern leaves open how a
text goes on, so that the texts are found that begin with an instance.
-/

namespace Imageboard.Text

/-- Whether a text is an instance of a pattern in which the star alone is special. -/
inductive StarInstance : List Char → List Char → Prop where
  /-- Nothing is an instance of nothing. -/
  | nil : StarInstance [] []
  /-- A star stands for any run of characters. -/
  | run {pattern text : List Char} (skipped : List Char) (h : StarInstance pattern text) :
    StarInstance ('*' :: pattern) (skipped ++ text)
  /-- Any other character stands for itself. -/
  | same {pattern text : List Char} {c : Char} (hstar : c ≠ '*') (h : StarInstance pattern text) :
    StarInstance (c :: pattern) (c :: text)

/-- Whether a text begins with an instance of a pattern. -/
def BeginsWith (pattern text : List Char) : Prop :=
  ∃ us, us <+: text ∧ StarInstance pattern us

variable {pattern text p q : List Char} {c : Char}

/-- The instances of a star and a pattern end with an instance of the pattern. -/
theorem starInstance_star_iff :
    StarInstance ('*' :: pattern) text ↔
      ∃ skipped rest, text = skipped ++ rest ∧ StarInstance pattern rest := by
  constructor
  · intro h
    generalize hstarred : '*' :: pattern = starred at h
    cases h with
    | nil => cases hstarred
    | run skipped h =>
      obtain ⟨-, rfl⟩ := List.cons.inj hstarred
      exact ⟨skipped, _, rfl, h⟩
    | same hstar => exact absurd (List.cons.inj hstarred).1.symm hstar
  · rintro ⟨skipped, rest, rfl, h⟩
    exact .run skipped h

/-- The instances of another character and a pattern begin with the character. -/
theorem starInstance_cons_iff (hstar : c ≠ '*') :
    StarInstance (c :: pattern) text ↔ ∃ rest, text = c :: rest ∧ StarInstance pattern rest := by
  constructor
  · intro h
    generalize hcons : c :: pattern = whole at h
    cases h with
    | nil => cases hcons
    | run => exact absurd (List.cons.inj hcons).1 hstar
    | same _ h =>
      obtain ⟨rfl, rfl⟩ := List.cons.inj hcons
      exact ⟨_, rfl, h⟩
  · rintro ⟨rest, rfl, h⟩
    exact .same hstar h

/-- The instances of nothing are nothing. -/
theorem starInstance_nil_iff : StarInstance [] text ↔ text = [] := by
  constructor
  · intro h
    cases h
    rfl
  · rintro rfl
    exact .nil

/-- The instances of two patterns, one after the other, are instances of the two, one after the other. -/
theorem starInstance_append_iff : StarInstance (p ++ q) text ↔
    ∃ us vs, text = us ++ vs ∧ StarInstance p us ∧ StarInstance q vs := by
  induction p generalizing text with
  | nil =>
    rw [List.nil_append]
    constructor
    · exact fun h => ⟨[], text, rfl, .nil, h⟩
    · rintro ⟨us, vs, rfl, hus, hvs⟩
      rwa [starInstance_nil_iff.1 hus]
  | cons c p ih =>
    rw [List.cons_append]
    by_cases hstar : c = '*'
    · subst hstar
      simp only [starInstance_star_iff, ih]
      constructor
      · rintro ⟨skipped, rest, rfl, us, vs, rfl, hus, hvs⟩
        exact ⟨skipped ++ us, vs, by rw [List.append_assoc], ⟨skipped, us, rfl, hus⟩, hvs⟩
      · rintro ⟨us, vs, rfl, ⟨skipped, rest, rfl, hrest⟩, hvs⟩
        exact ⟨skipped, rest ++ vs, by rw [List.append_assoc], rest, vs, rfl, hrest, hvs⟩
    · simp only [starInstance_cons_iff hstar, ih]
      constructor
      · rintro ⟨rest, rfl, us, vs, rfl, hus, hvs⟩
        exact ⟨c :: us, vs, rfl, ⟨us, rfl, hus⟩, hvs⟩
      · rintro ⟨us, vs, rfl, ⟨rest, rfl, hrest⟩, hvs⟩
        exact ⟨rest ++ vs, rfl, rest, vs, rfl, hrest, hvs⟩

/-- Stars alone have nothing as an instance. -/
theorem starInstance_stars (h : ∀ c ∈ pattern, c = '*') : StarInstance pattern [] := by
  induction pattern with
  | nil => exact .nil
  | cons c rest ih =>
    obtain ⟨rfl, hrest⟩ := List.forall_mem_cons.1 h
    exact .run [] (ih hrest)

/-- A text without stars is the only instance of itself. -/
theorem starInstance_iff_eq (hstar : '*' ∉ pattern) : StarInstance pattern text ↔ text = pattern := by
  induction pattern generalizing text with
  | nil => exact starInstance_nil_iff
  | cons c rest ih =>
    obtain ⟨hc, hrest⟩ := not_or.1 (List.mem_cons.not.1 hstar)
    rw [starInstance_cons_iff (Ne.symm hc)]
    simp only [ih hrest]
    exact ⟨fun ⟨_, htext, heq⟩ => heq ▸ htext, fun htext => ⟨rest, htext, rfl⟩⟩

/-- What is dropped of a pattern with the stars at its end is stars. -/
theorem exists_eq_append_stars (pattern : List Char) : ∃ bare stars,
    (pattern.reverse.dropWhile (· = '*')).reverse = bare ∧ (∀ c ∈ stars, c = '*') ∧
      pattern = bare ++ stars := by
  refine ⟨_, (pattern.reverse.takeWhile (· = '*')).reverse, rfl, fun c hc => ?_, ?_⟩
  · simpa using List.mem_takeWhile_imp (List.mem_reverse.1 hc)
  · rw [← List.reverse_append, List.takeWhile_append_dropWhile, List.reverse_reverse]

/-- A pattern with a single star in place of the stars at its end has as instances what begins with an
instance of the pattern. -/
theorem starInstance_append_star_iff {bare stars : List Char} (hstars : ∀ c ∈ stars, c = '*') :
    StarInstance (bare ++ ['*']) text ↔ BeginsWith (bare ++ stars) text := by
  constructor
  · intro h
    obtain ⟨us, vs, rfl, hus, -⟩ := starInstance_append_iff.1 h
    exact ⟨us, List.prefix_append .., starInstance_append_iff.2
      ⟨us, [], by rw [List.append_nil], hus, starInstance_stars hstars⟩⟩
  · rintro ⟨us, ⟨rest, rfl⟩, hus⟩
    obtain ⟨before, after, rfl, hbefore, -⟩ := starInstance_append_iff.1 hus
    exact starInstance_append_iff.2 ⟨before, after ++ rest, by rw [List.append_assoc], hbefore,
      starInstance_star_iff.2 ⟨after ++ rest, [], by rw [List.append_nil], .nil⟩⟩

/-! ## Like patterns -/

/-- A text without a null character is taken whole. -/
theorem beforeNull_eq_self_iff : beforeNull text = text ↔ '\x00' ∉ text := by
  have hnull (c : Char) : (c.toNat != 0) = true ↔ c ≠ '\x00' := by
    rw [bne_iff_ne, ne_eq, ne_eq, ← Char.toNat_inj]
    rfl
  rw [beforeNull, List.takeWhile_eq_self_iff]
  simp only [hnull]
  exact ⟨fun h hc => h _ hc rfl, fun h c hc heq => h (heq ▸ hc)⟩

/-- The atom that a character of an escaped like pattern is read as. -/
def starAtom (c : Char) : Atom :=
  if c = '*' then .anyRun else .exactly c

/-- An escaped like pattern is read character by character. -/
theorem readLike_escapeLike (pattern : List Char) :
    readLike (escapeLike pattern) = some (pattern.map starAtom) := by
  induction pattern with
  | nil => rfl
  | cons c rest ih =>
    have hcons : escapeLike (c :: rest) = (if c = '*' then ['%']
        else if c = '\\' ∨ c = '%' ∨ c = '_' then ['\\', c] else [c]) ++ escapeLike rest := rfl
    rw [hcons, List.map_cons, starAtom]
    by_cases hstar : c = '*'
    · simp [hstar, readLike, ih]
    by_cases hspecial : c = '\\' ∨ c = '%' ∨ c = '_'
    · simp [hstar, hspecial, readLike, ih]
    · obtain ⟨hescape, hrun, hone⟩ : c ≠ '\\' ∧ c ≠ '%' ∧ c ≠ '_' := by simpa using hspecial
      simp [hstar, readLike, hescape, hrun, hone, ih]

/-- Escaping adds no null character and keeps what comes before one. -/
theorem beforeNull_escapeLike (pattern : List Char) :
    beforeNull (escapeLike pattern) = escapeLike (beforeNull pattern) := by
  induction pattern with
  | nil => rfl
  | cons c rest ih =>
    unfold beforeNull at ih ⊢
    by_cases hstar : c = '*'
    · subst hstar
      simpa [escapeLike, List.takeWhile_cons] using ih
    by_cases hspecial : c = '\\' ∨ c = '%' ∨ c = '_'
    · have hnull : c.toNat ≠ 0 := by rcases hspecial with rfl | rfl | rfl <;> decide
      simpa [escapeLike, hstar, hspecial, List.takeWhile_cons, hnull] using ih
    · by_cases hnull : c.toNat = 0
      · simp [escapeLike, hstar, hspecial, hnull]
      · simpa [escapeLike, hstar, hspecial, List.takeWhile_cons, hnull] using ih

/-- The atoms of an escaped like pattern cover the texts that are instances up to the case of ASCII
letters. -/
theorem covers_starAtoms_iff (pattern text : List Char) :
    covers sameFolded (pattern.map starAtom) text = true ↔
      StarInstance (pattern.map Char.toLower) (text.map Char.toLower) := by
  induction pattern generalizing text with
  | nil =>
    rw [List.map_nil, List.map_nil, covers, List.isEmpty_iff, starInstance_nil_iff,
      List.map_eq_nil_iff]
  | cons c rest ih =>
    rw [List.map_cons, List.map_cons]
    by_cases hstar : c = '*'
    · subst hstar
      change covers _ (.anyRun :: rest.map starAtom) text = true ↔ StarInstance ('*' :: _) _
      simp only [covers_anyRun_iff, starInstance_star_iff, ih]
      constructor
      · rintro ⟨skipped, tail, rfl, h⟩
        exact ⟨_, _, List.map_append, h⟩
      · rintro ⟨skipped, tail, heq, h⟩
        obtain ⟨us, vs, rfl, rfl, rfl⟩ := List.map_eq_append_iff.1 heq
        exact ⟨us, vs, rfl, h⟩
    · have hatom : starAtom c = .exactly c := if_neg hstar
      rw [hatom, starInstance_cons_iff ((toLower_eq_iff (by decide) c).not.2 hstar)]
      cases text with
      | nil => simp [covers]
      | cons d text =>
        rw [covers]
        · rw [Bool.and_eq_true, ih, Atom.accepts, sameFolded, beq_iff_eq, List.map_cons]
          constructor
          · rintro ⟨hsame, h⟩
            exact ⟨_, by rw [hsame], h⟩
          · rintro ⟨tail, heq, h⟩
            obtain ⟨hsame, rfl⟩ := List.cons.inj heq
            exact ⟨hsame.symm, h⟩
        · simp

/-- A text matches an escaped like pattern if, both taken up to their first null characters and in lower
case as to ASCII letters, it is an instance of the pattern. -/
theorem likeMatches_escapeLike_iff (pattern text : List Char) :
    likeMatches (escapeLike pattern) text = true ↔
      StarInstance ((beforeNull pattern).map Char.toLower) ((beforeNull text).map Char.toLower) := by
  unfold likeMatches
  rw [beforeNull_escapeLike, readLike_escapeLike]
  exact covers_starAtoms_iff _ _

end Imageboard.Text
