import Imageboard.Proofs.Text.Stars

/-!
# Escaped patterns

What is special in a pattern of the store but not in one of ours is escaped before the two languages are
compared: brackets in glob patterns; percent signs, underscores and backslashes in like patterns, where
the star then becomes a percent sign. One pass over the pattern does what replacing these characters one
after the other does, with the backslash first and the star last. Escaping is exact: a text matches the
escaped pattern in the language of the store exactly if it is an instance of the pattern, for like patterns
up to the case of ASCII letters.
-/

namespace Imageboard.Text

variable {pattern text : List Char} {c : Char}

/-! ## Replacing characters -/

/-- Text with other text in the place of each occurrence of a character. -/
def replaced (c : Char) (other : List Char) (cs : List Char) : List Char :=
  cs.flatMap fun d => if d = c then other else [d]

/-- Text is replaced part by part. -/
theorem replaced_append (other cs ds : List Char) :
    replaced c other (cs ++ ds) = replaced c other cs ++ replaced c other ds :=
  List.flatMap_append

/-- Escaping for glob patterns puts each opening bracket into brackets. -/
theorem escapeGlob_eq_replaced (pattern : List Char) :
    escapeGlob pattern = replaced '[' ['[', '[', ']'] pattern :=
  rfl

/-- Escaping for like patterns puts a backslash before each special character, before backslashes first,
and turns stars into percent signs last. -/
theorem escapeLike_eq_replaced (pattern : List Char) :
    escapeLike pattern = replaced '*' ['%'] (replaced '_' ['\\', '_'] (replaced '%' ['\\', '%']
      (replaced '\\' ['\\', '\\'] pattern))) := by
  induction pattern with
  | nil => rfl
  | cons c rest ih =>
    have hcons (d : Char) (other : List Char) : replaced d other (c :: rest) =
        (if c = d then other else [c]) ++ replaced d other rest := rfl
    have hescape : escapeLike (c :: rest) = (if c = '*' then ['%']
        else if c = '\\' ∨ c = '%' ∨ c = '_' then ['\\', c] else [c]) ++ escapeLike rest := rfl
    rw [hescape, hcons, replaced_append, replaced_append, replaced_append, ← ih]
    congr 1
    by_cases hspecial : c = '*' ∨ c = '\\' ∨ c = '%' ∨ c = '_'
    · rcases hspecial with rfl | rfl | rfl | rfl <;> rfl
    · obtain ⟨hstar, hbackslash, hpercent, hunderscore⟩ := by simpa only [not_or] using hspecial
      simp [replaced, hstar, hbackslash, hpercent, hunderscore]

/-- The order counts: backslashes replaced behind the percent signs double those put before them. -/
example : escapeLike ['%'] = ['\\', '%'] ∧
    replaced '\\' ['\\', '\\'] (replaced '%' ['\\', '%'] ['%']) = ['\\', '\\', '%'] := by decide

/-! ## Instances up to letter case -/

/-- Whether a text is an instance of a pattern with stars, up to the case of ASCII letters. -/
def FoldedInstance (pattern text : List Char) : Prop :=
  ∃ us, us.map Char.toLower = text.map Char.toLower ∧ StarInstance pattern us

/-- A character is folded to a star only if it is one. -/
theorem toLower_eq_star_iff : c.toLower = '*' ↔ c = '*' :=
  toLower_eq_iff (by decide) c

/-- Folding keeps the instances of a pattern. -/
theorem StarInstance.map_toLower (h : StarInstance pattern text) :
    StarInstance (pattern.map Char.toLower) (text.map Char.toLower) := by
  induction h with
  | nil => exact .nil
  | run skipped _ ih =>
    rw [List.map_cons, List.map_append, toLower_eq_star_iff.2 rfl]
    exact .run _ ih
  | same hstar _ ih => exact .same (toLower_eq_star_iff.not.2 hstar) ih

/-- An instance of the folded pattern is, up to letter case, one of the pattern. -/
theorem foldedInstance_of_starInstance
    (h : StarInstance (pattern.map Char.toLower) (text.map Char.toLower)) :
    FoldedInstance pattern text := by
  induction pattern generalizing text with
  | nil => exact ⟨[], (starInstance_nil_iff.1 h).symm, .nil⟩
  | cons c rest ih =>
    rw [List.map_cons] at h
    by_cases hstar : c = '*'
    · subst hstar
      obtain ⟨skipped, tail, heq, htail⟩ := starInstance_star_iff.1 h
      obtain ⟨as, bs, rfl, -, rfl⟩ := List.map_eq_append_iff.1 heq
      obtain ⟨us, hus, hinstance⟩ := ih htail
      exact ⟨as ++ us, by rw [List.map_append, List.map_append, hus], .run as hinstance⟩
    · obtain ⟨tail, heq, htail⟩ := (starInstance_cons_iff (toLower_eq_star_iff.not.2 hstar)).1 h
      obtain ⟨d, ds, rfl, hd, rfl⟩ := List.map_eq_cons_iff.1 heq
      obtain ⟨us, hus, hinstance⟩ := ih htail
      exact ⟨c :: us, by rw [List.map_cons, List.map_cons, hd, hus], .same hstar hinstance⟩

/-- A text is an instance up to letter case exactly if the folded text is one of the folded pattern. -/
theorem foldedInstance_iff :
    FoldedInstance pattern text ↔ StarInstance (pattern.map Char.toLower) (text.map Char.toLower) := by
  refine ⟨?_, foldedInstance_of_starInstance⟩
  rintro ⟨us, hus, h⟩
  exact hus ▸ h.map_toLower

/-- Escaping is exact, for texts and patterns without null characters. What replacing the special
characters gives matches a text in the language of the store exactly if the text is an instance of the
pattern: for glob patterns with stars and question marks alone as wildcards, and for like patterns with
stars alone and up to the case of ASCII letters. -/
theorem matches_escaped_iff (hpattern : '\x00' ∉ pattern) (htext : '\x00' ∉ text) :
    (escapeGlob pattern = replaced '[' ['[', '[', ']'] pattern ∧
      (globMatches (escapeGlob pattern) text = true ↔ Instance pattern text)) ∧
    (escapeLike pattern = replaced '*' ['%'] (replaced '_' ['\\', '_'] (replaced '%' ['\\', '%']
        (replaced '\\' ['\\', '\\'] pattern))) ∧
      (likeMatches (escapeLike pattern) text = true ↔ FoldedInstance pattern text)) := by
  have hwhole := beforeNull_eq_self_iff.2 hpattern
  have hwhole' := beforeNull_eq_self_iff.2 htext
  refine ⟨⟨escapeGlob_eq_replaced pattern, ?_⟩, escapeLike_eq_replaced pattern, ?_⟩
  · rw [globMatches_escapeGlob_iff, hwhole, hwhole']
  · rw [likeMatches_escapeLike_iff, hwhole, hwhole', foldedInstance_iff]

/-- Brackets and a question mark in a glob pattern; a backslash, a percent sign and a letter in the other
case in a like pattern. -/
theorem matches_escaped_iff_specials :
    ('\x00' ∉ "[^a]?*]-".toList ∧ '\x00' ∉ "[^a]x]-".toList ∧
      globMatches (escapeGlob "[^a]?*]-".toList) "[^a]x]-".toList = true) ∧
    ('\x00' ∉ "A\\%_*".toList ∧ '\x00' ∉ "a\\%_b".toList ∧
      likeMatches (escapeLike "A\\%_*".toList) "a\\%_b".toList = true) := by
  have hglob : Instance "[^a]?*]-".toList "[^a]x]-".toList :=
    .same (by decide) (by decide) <| .same (by decide) (by decide) <| .same (by decide) (by decide) <|
      .same (by decide) (by decide) <| .one 'x' <| .run [] <| .same (by decide) (by decide) <|
      .same (by decide) (by decide) .nil
  have hlike : FoldedInstance "A\\%_*".toList "a\\%_b".toList :=
    ⟨"A\\%_b".toList, by decide, .same (by decide) <| .same (by decide) <| .same (by decide) <|
      .same (by decide) <| .run ['b'] .nil⟩
  exact ⟨⟨by decide, by decide, (matches_escaped_iff (by decide) (by decide)).1.2.2 hglob⟩,
    by decide, by decide, (matches_escaped_iff (by decide) (by decide)).2.2.2 hlike⟩

end Imageboard.Text
