import Imageboard.Proofs.Query.Tokenizing
import Imageboard.Proofs.Text.Endings
import Imageboard.Query.Term
import Mathlib.Data.List.TakeWhile

/-!
# Terms of tokens in lower case

A token is read as the same kind of term in lower case, with the same mark and under the same name.
Only the value of a metatag can differ. A token without a colon has no value, so that nothing of it
depends on letter case. Tokens with spaces, which come from quoted values, are left out: a tag name
loses the blanks at its ends.
-/

namespace Imageboard.Query

open Text

variable {cs ds : List Char}

/-- Text is split at its first colon if something stands on both sides of it. -/
theorem splitKey?_eq_some_iff {key value : List Char} : splitKey? cs = some (key, value) ↔
    cs = key ++ ':' :: value ∧ key ≠ [] ∧ value ≠ [] ∧ ':' ∉ key := by
  have hsplit : cs.takeWhile (· != ':') ++ cs.dropWhile (· != ':') = cs := List.takeWhile_append_dropWhile
  have hkey : ':' ∉ cs.takeWhile (· != ':') := by
    intro hmem
    simpa using List.mem_takeWhile_imp hmem
  unfold splitKey?
  constructor
  · intro h
    split at h
    next c key' colon d value' htake hdrop =>
      obtain ⟨rfl, rfl⟩ := Prod.mk.inj (Option.some.inj h)
      have hcolon : colon = ':' := by
        have hhead := List.head_dropWhile_not (· != ':') (l := cs) (by simp [hdrop])
        simpa [hdrop] using hhead
      subst hcolon
      rw [htake] at hkey
      exact ⟨by rw [← htake, ← hdrop, hsplit], by simp, by simp, hkey⟩
    next => cases h
  · rintro ⟨rfl, hkeynil, hvaluenil, hcolon⟩
    have hpos : ∀ c ∈ key, (c != ':') = true := by
      intro c hc
      simpa using ne_of_mem_of_not_mem hc hcolon
    rw [List.takeWhile_append_of_pos hpos, List.dropWhile_append_of_pos hpos]
    obtain ⟨c, key, rfl⟩ := List.exists_cons_of_ne_nil hkeynil
    obtain ⟨d, value, rfl⟩ := List.exists_cons_of_ne_nil hvaluenil
    simp

/-! ## Marks, keys and names in lower case -/

/-- The marks of polarity are kept and have no part in the letters after them. -/
theorem lower_mark {c : Char} (hc : c = '-' ∨ c = '~') : lower (c :: cs) = c :: lower cs := by
  rcases hc with rfl | rfl <;>
    exact lower_cons (isCaseless_special.1 _ (by simp)) (by decide +kernel)

/-- Text begins with a mark in lower case if it does. -/
theorem exists_of_lower_eq_mark {c : Char} {rest : List Char} (hc : c = '-' ∨ c = '~')
    (h : lower cs = c :: rest) : ∃ body, cs = c :: body ∧ rest = lower body := by
  have hcaseless : isCaseless c = true := by
    rcases hc with rfl | rfl <;> exact isCaseless_special.1 _ (by simp)
  have hlowered : Lowered cs ([] ++ c :: rest) := h ▸ lowered_lower cs
  obtain ⟨as, bs, rfl, has, -⟩ := hlowered.of_eq_append_cons hcaseless
  obtain rfl := has.eq_nil_iff.1 rfl
  rw [List.nil_append, lower_mark hc] at h
  exact ⟨bs, rfl, (List.cons.inj h).2.symm⟩

/-- The lower case of text is not empty if the text is not. -/
theorem exists_lower_eq_cons (c : Char) (rest : List Char) : ∃ d ds, lower (c :: rest) = d :: ds := by
  refine List.exists_cons_of_ne_nil fun hnil => ?_
  cases (lowered_lower _).eq_nil_iff.1 hnil

/-- Text with no mark in front, or a lone one, is all body. -/
theorem splitPolarity_plain (h : ∀ c rest, cs = c :: rest → c = '-' ∨ c = '~' → rest = []) :
    splitPolarity cs = (.required, cs) := by
  unfold splitPolarity
  split
  · cases h _ _ rfl (Or.inl rfl)
  · cases h _ _ rfl (Or.inr rfl)
  · rfl

/-- The mark is split off in lower case as it is before. -/
theorem splitPolarity_lower (cs : List Char) :
    splitPolarity (lower cs) = ((splitPolarity cs).1, lower (splitPolarity cs).2) := by
  by_cases hmark : ∀ c rest, cs = c :: rest → c = '-' ∨ c = '~' → rest = []
  · rw [splitPolarity_plain hmark]
    refine splitPolarity_plain fun c rest heq hc => ?_
    obtain ⟨body, hbody, rfl⟩ := exists_of_lower_eq_mark hc heq
    rw [hmark c body hbody hc]
    rfl
  · simp only [not_forall] at hmark
    obtain ⟨c, rest, rfl, hc, hrest⟩ := hmark
    obtain ⟨d, body, rfl⟩ := List.exists_cons_of_ne_nil hrest
    obtain ⟨e, es, hlower⟩ := exists_lower_eq_cons d body
    rw [lower_mark hc, hlower]
    rcases hc with rfl | rfl <;> simp [splitPolarity, hlower]

/-- Text is split into a key and a value in lower case as it is before. -/
theorem splitKey?_lower (cs : List Char) :
    splitKey? cs = none ∧ splitKey? (lower cs) = none ∨
      ∃ key value key' value', splitKey? cs = some (key, value) ∧
        splitKey? (lower cs) = some (key', value') ∧ Lowered key key' := by
  have hcolon : isCaseless ':' = true := isCaseless_special.1 _ (by simp)
  cases hsplit : splitKey? cs with
  | some pair =>
    obtain ⟨key, value⟩ := pair
    obtain ⟨rfl, hkey, hvalue, hnot⟩ := splitKey?_eq_some_iff.1 hsplit
    obtain ⟨us, vs, heq, hus, hvs⟩ := (lowered_lower _).of_append_cons hcolon
    refine Or.inr ⟨key, value, us, vs, rfl, splitKey?_eq_some_iff.2 ⟨heq, ?_, ?_, ?_⟩, hus⟩
    · exact fun hnil => hkey (hus.eq_nil_iff.1 hnil)
    · exact fun hnil => hvalue (hvs.eq_nil_iff.1 hnil)
    · rwa [hus.mem_iff hcolon]
  | none =>
    refine Or.inl ⟨rfl, ?_⟩
    cases hsplit' : splitKey? (lower cs) with
    | none => rfl
    | some pair =>
      obtain ⟨key, value⟩ := pair
      obtain ⟨heq, hkey, hvalue, hnot⟩ := splitKey?_eq_some_iff.1 hsplit'
      have hlowered : Lowered cs (key ++ ':' :: value) := heq ▸ lowered_lower cs
      obtain ⟨as, bs, rfl, has, hbs⟩ := hlowered.of_eq_append_cons hcolon
      have hthere : splitKey? (as ++ ':' :: bs) = some (as, bs) := by
        refine splitKey?_eq_some_iff.2 ⟨rfl, ?_, ?_, ?_⟩
        · exact fun hnil => hkey (has.eq_nil_iff.2 hnil)
        · exact fun hnil => hvalue (hbs.eq_nil_iff.2 hnil)
        · rwa [← has.mem_iff hcolon]
      rw [hthere] at hsplit
      cases hsplit

/-- Lowering adds no blanks. -/
theorem not_isBlank_lower (h : ∀ c ∈ cs, isBlank c = false) : ∀ c ∈ lower cs, isBlank c = false := by
  intro c hc
  rw [← Bool.not_eq_true]
  intro hblank
  rw [h c (((lowered_lower cs).mem_iff (isCaseless_of_isBlank hblank)).1 hc)] at hblank
  cases hblank

/-- The name of a tag without blanks is its lower case. -/
theorem normalizeChars_of_not_isBlank (h : ∀ c ∈ cs, isBlank c = false) :
    TagName.normalizeChars cs = lower cs := by
  have hspace : ∀ c ∈ lower cs, c ≠ ' ' := by
    rintro c hc rfl
    cases not_isBlank_lower h _ hc
  rw [TagName.normalizeChars, trim_eq_self h, squeeze, squeezeFrom_eq_self false h]
  calc (lower cs).map (fun c => if c = ' ' then '_' else c)
    _ = (lower cs).map id := List.map_congr_left fun c hc => if_neg (hspace c hc)
    _ = lower cs := List.map_id _

/-- No blank is left in a stored spelling. -/
theorem not_isBlank_normalizeChars (cs : List Char) :
    ∀ c ∈ TagName.normalizeChars cs, isBlank c = false := by
  intro c hc
  obtain ⟨d, hd, rfl⟩ := List.mem_map.1 hc
  split
  · decide
  next hspace =>
    rw [← Bool.not_eq_true]
    intro hblank
    have hsqueezed := ((lowered_lower _).mem_iff (isCaseless_of_isBlank hblank)).1 hd
    exact hspace (eq_space_of_mem_squeezeFrom false hsqueezed hblank)

/-- A stored spelling is stored as it is. -/
theorem normalizeChars_normalizeChars (cs : List Char) :
    TagName.normalizeChars (TagName.normalizeChars cs) = TagName.normalizeChars cs := by
  rw [normalizeChars_of_not_isBlank (not_isBlank_normalizeChars cs)]
  refine lowerAfter_eq_self fun c hc => ?_
  obtain ⟨d, hd, rfl⟩ := List.mem_map.1 hc
  split
  · exact settled_of_not_upper (by decide +kernel) (by decide)
  · exact (lowered_lower _).settled d hd

/-- What follows the mark is part of the token. -/
theorem mem_of_mem_splitPolarity {c : Char} (h : c ∈ (splitPolarity cs).2) : c ∈ cs := by
  unfold splitPolarity at h
  split at h
  · exact List.mem_cons_of_mem _ h
  · exact List.mem_cons_of_mem _ h
  · exact h

/-! ## Terms -/

/-- Taken as a tag, text without blanks has the same name in lower case. -/
theorem tagTerm_lower {polarity : Polarity} {raw raw' : String}
    (h : ∀ c ∈ cs, isBlank c = false) :
    (tagTerm polarity (lower cs) raw').key = (tagTerm polarity cs raw).key := by
  have hname : TagName.normalizeChars (lower cs) = TagName.normalizeChars cs := by
    rw [normalizeChars_of_not_isBlank (not_isBlank_lower h), normalizeChars_of_not_isBlank h,
      lower_lower]
  simp [tagTerm, Term.key, hname]

/-- A token without blanks has in lower case the same kind, mark and name, if the names of the
metatags are steady or the token has no colon. -/
theorem classifyToken_lowerString (metatags : List String) {token : String}
    (hblank : ∀ c ∈ token.toList, isBlank c = false)
    (hwords : ':' ∈ token.toList → ∀ w ∈ metatags, IsSteady w.toList) :
    (classifyToken metatags (lowerString token)).kind = (classifyToken metatags token).kind ∧
      (classifyToken metatags (lowerString token)).polarity =
        (classifyToken metatags token).polarity ∧
      (classifyToken metatags (lowerString token)).name = (classifyToken metatags token).name := by
  have hbody : ∀ c ∈ (splitPolarity token.toList).2, isBlank c = false :=
    fun c hc => hblank c (mem_of_mem_splitPolarity hc)
  have htag (polarity : Polarity) (raw raw' : String) :
      (tagTerm polarity (lower (splitPolarity token.toList).2) raw').key =
        (tagTerm polarity (splitPolarity token.toList).2 raw).key := tagTerm_lower hbody
  simp only [Term.key, Prod.mk.injEq] at htag
  unfold classifyToken
  rw [lowerString, String.toList_ofList, splitPolarity_lower]
  dsimp only
  rcases splitKey?_lower (splitPolarity token.toList).2 with
    ⟨hnone, hnone'⟩ | ⟨key, value, key', value', hsome, hsome', hkey⟩
  · rw [hnone, hnone']
    exact ⟨(htag _ _ _).1, (htag _ _ _).2.1, (htag _ _ _).2.2.1⟩
  · rw [hsome, hsome']
    dsimp only
    obtain ⟨hparts, -, -, hnot⟩ := splitKey?_eq_some_iff.1 hsome
    obtain ⟨hparts', -, -, -⟩ := splitKey?_eq_some_iff.1 hsome'
    have hcolon : ':' ∈ token.toList := mem_of_mem_splitPolarity (by simp [hparts])
    have hform (w : String) (hw : IsSteady w.toList) :
        String.ofList (lower key') = w ↔ String.ofList (lower key) = w := by
      rw [hkey.lower_eq, ← String.toList_inj, ← String.toList_inj, String.toList_ofList,
        String.toList_ofList]
      exact hw.eq_iff (isCaseless_special.1 _ (by simp)) (hparts ▸ hparts') hnot hkey
    have hsteady : IsSteady "order".toList := Or.inl (by decide)
    by_cases horder : String.ofList (lower key) = "order"
    · rw [if_pos horder, if_pos ((hform _ hsteady).2 horder)]
      exact ⟨rfl, rfl, rfl⟩
    rw [if_neg horder, if_neg fun h => horder ((hform _ hsteady).1 h)]
    by_cases hmetatag : String.ofList (lower key) ∈ metatags
    · have hsame := (hform _ (hwords hcolon _ hmetatag)).2 rfl
      rw [if_pos hmetatag, if_pos (hsame ▸ hmetatag)]
      exact ⟨rfl, rfl, hsame⟩
    · have hother : String.ofList (lower key') ∉ metatags := by
        intro hmem
        have hsame := (hform _ (hwords hcolon _ hmem)).1 rfl
        exact hmetatag (hsame ▸ hmem)
      rw [if_neg hmetatag, if_neg hother]
      exact ⟨(htag _ _ _).1, (htag _ _ _).2.1, (htag _ _ _).2.2.1⟩

/-- A token is read as a metatag if what stands before its first colon is the name of one. -/
theorem classifyToken_of_metatag {metatags : List String} {token name : String} {polarity : Polarity}
    {body key value : List Char} (hmark : splitPolarity token.toList = (polarity, body))
    (hpolarity : polarity ≠ .optional) (hsplit : splitKey? body = some (key, value))
    (hname : String.ofList (lower key) = name) (horder : name ≠ "order") (hmem : name ∈ metatags) :
    classifyToken metatags token =
      ⟨.metatag, polarity, name, some (String.ofList value), token⟩ := by
  simp only [classifyToken, hmark, hsplit, hname, if_neg horder, if_pos hmem, if_neg hpolarity]

/-- A tag has no value. -/
theorem value_tagTerm (polarity : Polarity) (body : List Char) (raw : String) :
    (tagTerm polarity body raw).value = none := rfl

/-- A tag that a token names is named as it is stored. -/
theorem normalize_name_classifyToken {metatags : List String} {token : String}
    (h : (classifyToken metatags token).kind = .tag) :
    TagName.normalize (classifyToken metatags token).name = (classifyToken metatags token).name := by
  have htag (polarity : Polarity) (body : List Char) (raw : String) :
      TagName.normalize (tagTerm polarity body raw).name = (tagTerm polarity body raw).name := by
    rw [tagTerm, TagName.normalize, String.toList_ofList, normalizeChars_normalizeChars]
  unfold classifyToken at h ⊢
  dsimp only at h ⊢
  split at h
  · exact htag _ _ _
  · split at h
    · cases h
    · split at h
      · cases h
      next horder hmetatag =>
        rw [if_neg horder, if_neg hmetatag]
        exact htag _ _ _

/-- A token without a colon has no value. -/
theorem value_classifyToken {metatags : List String} {token : String} (h : ':' ∉ token.toList) :
    (classifyToken metatags token).value = none := by
  unfold classifyToken
  dsimp only
  split
  next => exact value_tagTerm _ _ _
  next key value hsome =>
    refine absurd (mem_of_mem_splitPolarity ?_) h
    rw [(splitKey?_eq_some_iff.1 hsome).1]
    simp

/-- Tokens without blanks and colons that are one in lower case are one term. -/
theorem key_classifyToken_eq {metatags : List String} {token other : String}
    (hblank : ∀ c ∈ token.toList, isBlank c = false) (hblank' : ∀ c ∈ other.toList, isBlank c = false)
    (hcolon : ':' ∉ token.toList) (hlower : lowerString token = lowerString other) :
    (classifyToken metatags token).key = (classifyToken metatags other).key := by
  have hcolon' : ':' ∉ other.toList := by
    have hcaseless : isCaseless ':' = true := isCaseless_special.1 _ (by simp)
    have hchars : lower token.toList = lower other.toList := String.ofList_injective hlower
    rwa [← (lowered_lower _).mem_iff hcaseless, ← hchars, (lowered_lower _).mem_iff hcaseless]
  obtain ⟨hkind, hpolarity, hname⟩ :=
    classifyToken_lowerString metatags hblank fun h => absurd h hcolon
  obtain ⟨hkind', hpolarity', hname'⟩ :=
    classifyToken_lowerString metatags hblank' fun h => absurd h hcolon'
  rw [hlower] at hkind hpolarity hname
  simp [Term.key, ← hkind, hkind', ← hpolarity, hpolarity', ← hname, hname',
    value_classifyToken hcolon, value_classifyToken hcolon']

end Imageboard.Query
