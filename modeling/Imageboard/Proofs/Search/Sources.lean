import Imageboard.Proofs.Query.Stating
import Imageboard.Proofs.Text.Lowering
import Imageboard.Proofs.Text.Stars
import Imageboard.Search.Condition
import Imageboard.Store.Tagging

/-!
# Searching by source

The metatag for sources lowers its value over all of Unicode, the store lowers the sources in ASCII alone,
and the two are matched up to the case of ASCII letters. What is found by it begins with an instance of the
value, both in lower case. The converse holds for a source in which no letter beyond ASCII is lowered; a
source with such a letter is not even found by itself. Where patterns are compared, texts end at their first
null characters.
-/

namespace Imageboard

namespace Text

variable {pattern cs ds : List Char} {c : Char}

/-! ## Folding what is in lower case -/

/-- A character in lower case is folded to itself. -/
theorem Settled.toLower_eq (h : Settled c) : c.toLower = c := by
  by_cases hc : IsCapital c
  · have hascii : c.toNat < 0x80 := Nat.lt_of_le_of_lt hc.2 (by decide)
    have hdotted : c ≠ 'İ' := by
      rintro rfl
      exact absurd hascii (by decide)
    have hlower := h.1
    rw [lowerChar, if_neg hdotted, if_pos hascii] at hlower
    exact (List.cons.inj hlower).1
  · exact toLower_of_not_isCapital hc

/-- Folding twice is folding once. -/
theorem toLower_toLower (c : Char) : c.toLower.toLower = c.toLower := by
  by_cases hc : IsCapital c
  · refine toLower_of_not_isCapital fun h => ?_
    have hfolded := (of_isCapital hc).1
    unfold IsCapital at hc h
    omega
  · rw [toLower_of_not_isCapital hc, toLower_of_not_isCapital hc]

/-- What matches a pattern in lower case when it is folded, matches it in lower case. -/
theorem StarInstance.of_folded (hpattern : ∀ c ∈ pattern, Settled c)
    (h : StarInstance pattern (cs.map Char.toLower)) (hlowered : Lowered cs ds) :
    StarInstance pattern ds := by
  induction pattern generalizing cs ds with
  | nil =>
    rw [List.map_eq_nil_iff.1 (starInstance_nil_iff.1 h)] at hlowered
    rw [hlowered.eq_nil_iff.2 rfl]
    exact .nil
  | cons c rest ih =>
    obtain ⟨hc, hrest⟩ := List.forall_mem_cons.1 hpattern
    by_cases hstar : c = '*'
    · subst hstar
      obtain ⟨skipped, tail, heq, htail⟩ := starInstance_star_iff.1 h
      obtain ⟨as, bs, rfl, rfl, rfl⟩ := List.map_eq_append_iff.1 heq
      obtain ⟨us, vs, rfl, -, hvs⟩ := hlowered.of_append
      exact .run us (ih hrest htail hvs)
    · obtain ⟨tail, heq, htail⟩ := (starInstance_cons_iff hstar).1 h
      obtain ⟨a, as, rfl, hsame, rfl⟩ := List.map_eq_cons_iff.1 heq
      cases hlowered with
      | @cons _ piece _ ds hpiece hds =>
        -- a character that is folded to one in lower case is also lowered to it
        have hsigma : a ≠ 'Σ' := fun ha => hc.2 (hsame ▸ (toLower_eq_sigma_iff a).2 ha)
        rw [StandsIn, if_neg hsigma, ← lowerChar_toLower, hsame, hc.1] at hpiece
        rw [hpiece]
        exact .same hstar (ih hrest htail hds)

/-- What begins with an instance of a pattern in lower case when it is folded, begins with one in lower
case. -/
theorem BeginsWith.of_folded (hpattern : ∀ c ∈ pattern, Settled c)
    (h : BeginsWith pattern (cs.map Char.toLower)) : BeginsWith pattern (lower cs) := by
  obtain ⟨us, ⟨rest, heq⟩, hus⟩ := h
  obtain ⟨as, bs, rfl, rfl, rfl⟩ := List.map_eq_append_iff.1 heq.symm
  obtain ⟨ds, es, hlower, hds, -⟩ := (lowered_lower (as ++ bs)).of_append
  exact ⟨ds, ⟨es, hlower.symm⟩, hus.of_folded hpattern hds⟩

/-! ## Null characters -/

/-- What follows a text with a null character has no part in it. -/
theorem beforeNull_append (h : '\x00' ∈ cs) (ds : List Char) :
    beforeNull (cs ++ ds) = beforeNull cs := by
  induction cs with
  | nil => exact absurd h List.not_mem_nil
  | cons c rest ih =>
    unfold beforeNull at ih ⊢
    rw [List.cons_append, List.takeWhile_cons, List.takeWhile_cons]
    split
    next hc =>
      rw [ih ((List.mem_cons.1 h).resolve_left ?_)]
      rintro rfl
      exact absurd hc (by decide)
    next => rfl

end Text

namespace Search

open Query Text

/-- Whether a value finds a source: folded and up to its first null character, the source begins with an
instance of the value in lower case. A value that has a null character itself ends there, and then the
source is matched as a whole. -/
def FindsSource (value source : List Char) : Prop :=
  let folded := beforeNull (source.map Char.toLower)
  if '\x00' ∈ value then StarInstance (beforeNull (lower value)) folded
  else BeginsWith (lower value) folded

variable {value source : List Char}

/-- A value whose lower case has no null character has none itself, and conversely. -/
theorem null_mem_lower_iff (cs : List Char) : '\x00' ∈ lower cs ↔ '\x00' ∈ cs :=
  (lowered_lower cs).mem_iff (isCaseless_special.1 _ (by simp))

/-- The pattern made of a value matches the sources that the value finds. -/
theorem likeMatches_sourcePattern_iff (value source : String) :
    likeMatches (escapeLike (sourcePattern value).toList) (foldAscii source).toList = true ↔
      FindsSource value.toList source.toList := by
  obtain ⟨bare, stars, hbare, hstars, hsplit⟩ := exists_eq_append_stars (lower value.toList)
  have hsettled : ∀ c ∈ bare ++ ['*'], Settled c := by
    intro c hc
    rcases List.mem_append.1 hc with hc | hc
    · exact (lowered_lower value.toList).settled c (hsplit ▸ List.mem_append_left _ hc)
    · obtain rfl := List.mem_singleton.1 hc
      exact ⟨lowerChar_of_caseless (isCaseless_special.1 _ (by simp)), by decide⟩
  have hkept {cs : List Char} (hcs : ∀ c ∈ cs, c.toLower = c) :
      (beforeNull cs).map Char.toLower = beforeNull cs :=
    (List.map_congr_left fun c hc => hcs c ((List.takeWhile_prefix _).subset hc)).trans (List.map_id _)
  have hfolded : ∀ c ∈ source.toList.map Char.toLower, c.toLower = c := by
    intro c hc
    obtain ⟨d, -, rfl⟩ := List.mem_map.1 hc
    exact toLower_toLower d
  have hnull : '\x00' ∈ value.toList ↔ '\x00' ∈ bare := by
    rw [← null_mem_lower_iff, hsplit, List.mem_append, or_iff_left]
    exact fun hmem => absurd (hstars _ hmem) (by decide)
  rw [likeMatches_escapeLike_iff, sourcePattern, foldAscii, String.toList_ofList, String.toList_ofList,
    hbare, hkept hfolded, hkept fun c hc => (hsettled c hc).toLower_eq, FindsSource, hsplit]
  split
  next hmem => rw [beforeNull_append (hnull.1 hmem), beforeNull_append (hnull.1 hmem)]
  next hmem =>
    have hwhole : '\x00' ∉ bare ++ ['*'] := by simpa using hnull.not.1 hmem
    rw [beforeNull_eq_self_iff.2 hwhole, starInstance_append_star_iff hstars]

/-- A value without null characters finds only sources that begin with an instance of it, in lower case. -/
theorem FindsSource.beginsWith (h : FindsSource value source) (hvalue : '\x00' ∉ value) :
    BeginsWith (lower value) (lower source) := by
  rw [FindsSource, if_neg hvalue] at h
  obtain ⟨us, hbegins, hus⟩ := h
  exact BeginsWith.of_folded (lowered_lower value).settled
    ⟨us, hbegins.trans (List.takeWhile_prefix _), hus⟩

/-- Among texts without null characters, a value finds a source of which folding makes the lower case
exactly if the source begins with an instance of the value, in lower case. -/
theorem findsSource_iff (hvalue : '\x00' ∉ value) (hsource : '\x00' ∉ source)
    (hfolded : source.map Char.toLower = lower source) :
    FindsSource value source ↔ BeginsWith (lower value) (lower source) := by
  have hwhole : beforeNull (lower source) = lower source :=
    beforeNull_eq_self_iff.2 ((null_mem_lower_iff source).not.2 hsource)
  rw [FindsSource, if_neg hvalue, hfolded, hwhole]

/-- A source without stars and null characters is found by itself exactly if folding makes its lower
case. -/
theorem findsSource_self_iff (hstar : '*' ∉ source) (hnull : '\x00' ∉ source) :
    FindsSource source source ↔ source.map Char.toLower = lower source := by
  have hlower : '*' ∉ lower source :=
    ((lowered_lower source).mem_iff (isCaseless_special.1 _ (by simp))).not.2 hstar
  have hwhole : beforeNull (source.map Char.toLower) = source.map Char.toLower := by
    refine beforeNull_eq_self_iff.2 fun hmem => hnull ?_
    obtain ⟨c, hc, hfold⟩ := List.mem_map.1 hmem
    exact (toLower_eq_iff (by decide) c).1 hfold ▸ hc
  have hlength : (source.map Char.toLower).length ≤ (lower source).length := by
    rw [List.length_map]
    exact (lowered_lower source).length_le
  rw [FindsSource, if_neg hnull, hwhole]
  constructor
  · rintro ⟨us, hbegins, hus⟩
    rw [starInstance_iff_eq hlower] at hus
    subst hus
    exact (hbegins.eq_of_length_le hlength).symm
  · intro heq
    exact ⟨lower source, ⟨[], by rw [List.append_nil, heq]⟩, (starInstance_iff_eq hlower).2 rfl⟩

/-- No category takes over the metatag for sources. -/
theorem find?_source (cs : Categories) :
    (Registry.ofCategories cs).find? "source" = some .source :=
  Registry.find?_of_fixed (by decide) (by decide) cs

/-- The metatag for sources ignores letter case in ASCII: for a value other than the word for none, its
predicate is true of the posts whose sources the value finds. Such a source begins with an instance of
the value, both in lower case, unless the value has a null character; and where there are no null
characters, all sources that do so are found of which folding makes the lower case. Of the others none is
found by itself. -/
theorem truthOf_evaluate_source {value : String} (hvalue : lowerString value ≠ "none")
    (cs : Categories) (viewer : Viewer) (now : Moment) :
    ∃ predicate,
      (Registry.ofCategories cs).evaluate viewer now "source" value = .ok (.select predicate) ∧
        ∀ (c : Contents) (p : Post),
          (truthOf c p predicate = some true ↔ FindsSource value.toList p.source.toList) ∧
          ('\x00' ∉ value.toList →
            (truthOf c p predicate = some true →
              BeginsWith (lower value.toList) (lower p.source.toList)) ∧
            ('\x00' ∉ p.source.toList → p.source.toList.map Char.toLower = lower p.source.toList →
              (truthOf c p predicate = some true ↔
                BeginsWith (lower value.toList) (lower p.source.toList))) ∧
            (p.source = value → '*' ∉ value.toList →
              (truthOf c p predicate = some true ↔
                value.toList.map Char.toLower = lower value.toList))) := by
  refine ⟨.pattern .source (sourcePattern value), ?_, fun c p => ?_⟩
  · have hname : lowerString "source" = "source" := by decide
    rw [Registry.evaluate, hname, find?_source]
    exact if_neg hvalue
  · have hfound : truthOf c p (.pattern .source (sourcePattern value)) = some true ↔
        FindsSource value.toList p.source.toList := by
      rw [truthOf, columnValue, matchesPattern, Option.some.injEq]
      · exact likeMatches_sourcePattern_iff value p.source
      · simp
    refine ⟨hfound, fun hnull =>
      ⟨fun h => (hfound.1 h).beginsWith hnull, fun hsource hfolded => ?_, ?_⟩⟩
    · rw [hfound, findsSource_iff hnull hsource hfolded]
    · rintro rfl hstar
      rw [hfound, findsSource_self_iff hstar hnull]

/-- A source with a star, a letter in the other case and characters that are special in like patterns is
found. -/
theorem truthOf_evaluate_source_star :
    let p := PostDraft.toPost { source := "ax_B?" } 1 .null
    lowerString "A*_b" ≠ "none" ∧ ∃ predicate,
      (Registry.ofCategories .standard).evaluate .anonymous ⟨0, 0⟩ "source" "A*_b" =
          .ok (.select predicate) ∧
        truthOf .empty p predicate = some true := by
  intro p
  have hvalue : lowerString "A*_b" ≠ "none" := by decide +kernel
  obtain ⟨predicate, heval, hfinds⟩ := truthOf_evaluate_source hvalue .standard .anonymous ⟨0, 0⟩
  have hpattern : lower "A*_b".toList = ['a', '*', '_', 'b'] := by decide +kernel
  have hsource : lower p.source.toList = ['a', 'x', '_', 'b', '?'] := by decide +kernel
  have hbegins : BeginsWith (lower "A*_b".toList) (lower p.source.toList) := by
    rw [hpattern, hsource]
    exact ⟨['a', 'x', '_', 'b'], ⟨['?'], rfl⟩,
      .same (by decide) (.run ['x'] (.same (by decide) (.same (by decide) .nil)))⟩
  exact ⟨hvalue, predicate, heval,
    (((hfinds .empty p).2 (by decide)).2.1 (by decide) (by decide +kernel)).2 hbegins⟩

/-- A source that is a capital letter beyond ASCII is not found by itself, though in lower case it begins
with itself. -/
theorem source_not_found_by_itself :
    let p := PostDraft.toPost { source := "É" } 1 .null
    lowerString p.source ≠ "none" ∧ '*' ∉ p.source.toList ∧
      BeginsWith (lower p.source.toList) (lower p.source.toList) ∧ ∃ predicate,
        (Registry.ofCategories .standard).evaluate .anonymous ⟨0, 0⟩ "source" p.source =
            .ok (.select predicate) ∧
          truthOf .empty p predicate = some false := by
  intro p
  have hlower : lower p.source.toList = ['é'] := by decide +kernel
  refine ⟨by decide +kernel, by decide, ?_, .pattern .source "é*", by decide +kernel, by decide +kernel⟩
  rw [hlower]
  exact ⟨['é'], List.prefix_rfl, .same (by decide) .nil⟩

end Search

end Imageboard
