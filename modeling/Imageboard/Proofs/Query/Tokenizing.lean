import Imageboard.Proofs.Text.Lowering
import Imageboard.Query.Token

/-!
# What tokens are

The scanner keeps an invariant on what it has read of a token: the token is not empty, of blanks it
has spaces only, and no quote in it stands where it would open a quoted value. Text with these
properties and without spaces is read back as one token, in lower case too.
-/

namespace Imageboard.Query

open Text

/-- What the characters of a token have in common. -/
structure IsToken (cs : List Char) : Prop where
  ne_nil : cs ≠ []
  blank : ∀ c ∈ cs, isBlank c = true → c = ' '
  unquoted : ∀ before after, cs = before ++ '"' :: after → opensQuote before = false

/-- What the scanner keeps while it reads. -/
def Scan.Sound : Scan → Prop
  | .between => True
  | .token chars => IsToken chars
  | .quote chars _ value => IsToken chars ∧ '"' ∉ value

variable {cs ds : List Char}

/-- A quote is opened after a key and a colon. -/
theorem opensQuote_iff : opensQuote cs = true ↔
    ∃ key, cs = key ++ [':'] ∧ key ≠ [] ∧ ∀ c ∈ key, isBlank c = false ∧ c ≠ ':' ∧ c ≠ '"' := by
  unfold opensQuote
  constructor
  · intro h
    split at h
    next key hkey =>
      have hcs : cs = key.reverse ++ [':'] := by
        rw [← List.reverse_reverse cs, hkey, List.reverse_cons]
      refine ⟨key.reverse, hcs, ?_⟩
      simpa [and_assoc] using h
    next => cases h
  · rintro ⟨key, rfl, hnil, hkey⟩
    rw [List.reverse_append, List.reverse_singleton, List.singleton_append]
    simpa [and_assoc, hnil] using hkey

/-! ## Reading tokens -/

/-- What is dropped from the ends leaves characters of the text. -/
theorem mem_of_mem_trim {c : Char} (h : c ∈ trim cs) : c ∈ cs := by
  have hdrop (xs : List Char) (hc : c ∈ trimStart xs) : c ∈ xs :=
    (List.dropWhile_suffix _).mem hc
  simp only [trim, trimEnd, List.mem_reverse] at h
  exact hdrop _ (List.mem_reverse.1 (hdrop _ h))

/-- Squeezing adds no character but spaces. -/
theorem mem_of_mem_squeezeFrom {within : Bool} {c : Char} (h : c ∈ squeezeFrom within cs)
    (hspace : c ≠ ' ') : c ∈ cs := by
  induction cs generalizing within with
  | nil => simp [squeezeFrom] at h
  | cons d rest ih =>
    rw [squeezeFrom] at h
    split at h
    · split at h
      · exact List.mem_cons_of_mem _ (ih h)
      · exact List.mem_cons_of_mem _ (ih ((List.mem_cons.1 h).resolve_left hspace))
    · rcases List.mem_cons.1 h with rfl | h
      · exact List.mem_cons_self
      · exact List.mem_cons_of_mem _ (ih h)

/-- A token stays one with more text that has no quotes and no blanks but spaces. -/
theorem IsToken.append (h : IsToken cs) (hblank : ∀ c ∈ ds, isBlank c = true → c = ' ')
    (hquote : '"' ∉ ds) : IsToken (cs ++ ds) := by
  constructor
  · simp [h.ne_nil]
  · intro c hc
    rcases List.mem_append.1 hc with hc | hc
    · exact h.blank c hc
    · exact hblank c hc
  · intro before after heq
    rcases List.append_eq_append_iff.1 heq with ⟨rest, -, hrest⟩ | ⟨rest, hsplit, hrest⟩
    · exact absurd (hrest ▸ List.mem_append_right rest List.mem_cons_self) hquote
    · cases rest with
      | nil =>
        rw [List.nil_append] at hrest
        exact absurd (hrest ▸ List.mem_cons_self) hquote
      | cons c rest =>
        obtain ⟨rfl, -⟩ := List.cons.inj hrest
        exact h.unquoted _ _ hsplit

/-- A character that is no blank makes a token longer, unless it opens a quoted value. -/
theorem isToken_push {c : Char} (h : cs = [] ∨ IsToken cs) (hblank : isBlank c = false)
    (hquote : c = '"' → opensQuote cs = false) : IsToken (cs ++ [c]) := by
  have hempty : cs = [] → opensQuote cs = false := by
    rintro rfl
    rfl
  constructor
  · simp
  · intro d hd hdblank
    rcases List.mem_append.1 hd with hd | hd
    · rcases h with rfl | h
      · cases hd
      · exact h.blank d hd hdblank
    · rw [List.mem_singleton.1 hd, hblank] at hdblank
      cases hdblank
  · intro before after heq
    rcases List.eq_nil_or_concat after with rfl | ⟨init, last, rfl⟩
    · obtain ⟨rfl, hlast⟩ := List.append_inj' heq rfl
      exact hquote (List.cons.inj hlast).1
    · have hsplit : cs ++ [c] = (before ++ '"' :: init) ++ [last] := by
        rw [heq]
        simp
      obtain ⟨rfl, -⟩ := List.append_inj' hsplit rfl
      rcases h with hnil | h
      · simp at hnil
      · exact h.unquoted before init rfl

/-- Reading one more character of a token keeps what the scanner keeps. -/
theorem sound_scanInToken (position : Nat) (c : Char) (h : cs = [] ∨ IsToken cs) :
    (scanInToken cs position c).1.Sound ∧ ∀ t ∈ (scanInToken cs position c).2, IsToken t := by
  unfold scanInToken
  split
  next =>
    refine ⟨trivial, fun t ht => ?_⟩
    rcases h with rfl | h
    · simp at ht
    · simp only [List.isEmpty_iff, h.ne_nil, if_false, List.mem_singleton] at ht
      rwa [ht]
  next hblank =>
    rw [Bool.not_eq_true] at hblank
    split
    next hopens =>
      simp only [Bool.and_eq_true, decide_eq_true_eq] at hopens
      refine ⟨⟨?_, List.not_mem_nil⟩, by simp⟩
      rcases h with rfl | h
      · cases hopens.2
      · exact h
    next hnot =>
      refine ⟨isToken_push h hblank fun hc => ?_, by simp⟩
      simpa [hc] using hnot

/-- Reading one more character keeps what the scanner keeps. -/
theorem sound_scanChar (position : Nat) (c : Char) {state : Scan} (h : state.Sound) :
    (scanChar position c state).1.Sound ∧ ∀ t ∈ (scanChar position c state).2, IsToken t := by
  cases state with
  | between => exact sound_scanInToken _ _ (Or.inl rfl)
  | token chars => exact sound_scanInToken _ _ (Or.inr h)
  | quote chars start value =>
    obtain ⟨htoken, hvalue⟩ := h
    rw [scanChar]
    split
    · refine ⟨htoken.append (fun d hd hblank => ?_) fun hquote => ?_, by simp⟩
      · exact eq_space_of_mem_squeezeFrom false (mem_of_mem_trim hd) hblank
      · exact hvalue (mem_of_mem_squeezeFrom (mem_of_mem_trim hquote) (by decide))
    next hc => exact ⟨⟨htoken, by simp [hvalue, Ne.symm hc]⟩, by simp⟩

/-- Reading text keeps what the scanner keeps. -/
theorem sound_scan (position : Nat) (cs : List Char) {state : Scan} (h : state.Sound) :
    (scan position state cs).1.Sound ∧ ∀ t ∈ (scan position state cs).2, IsToken t := by
  induction cs generalizing position state with
  | nil => exact ⟨h, by simp [scan]⟩
  | cons c rest ih =>
    obtain ⟨hstate, hdone⟩ := sound_scanChar position c h
    obtain ⟨hfinal, hmore⟩ := ih (position + 1) hstate
    refine ⟨hfinal, fun t ht => ?_⟩
    rcases List.mem_append.1 ht with ht | ht
    · exact hdone t ht
    · exact hmore t ht

/-- Where the scanner is at the end of a query, and the tokens that it has completed. -/
theorem sound_scan_query (cs : List Char) :
    (scan 0 .between cs).1.Sound ∧ ∀ t ∈ (scan 0 .between cs).2, IsToken t :=
  sound_scan 0 cs (show Scan.Sound .between from trivial)

/-- The tokens of a query are tokens. -/
theorem isToken_of_tokenizeChars {tokens : List (List Char)} (h : tokenizeChars cs = .ok tokens) :
    ∀ t ∈ tokens, IsToken t := by
  obtain ⟨hfinal, hdone⟩ := sound_scan_query cs
  unfold tokenizeChars at h
  dsimp only at h
  cases hstate : (scan 0 .between cs).1 with
  | between =>
    simp only [hstate, finish, Except.map, List.append_nil, Except.ok.injEq] at h
    exact h ▸ hdone
  | token chars =>
    simp only [hstate, finish, Except.map, Except.ok.injEq] at h
    rw [hstate] at hfinal
    intro t ht
    rw [← h, List.mem_append, List.mem_singleton] at ht
    rcases ht with ht | rfl
    · exact hdone t ht
    · exact hfinal
  | quote chars start value => simp [hstate, finish, Except.map] at h

/-! ## Text that is one token -/

/-- The state of the scanner inside or before a token. -/
def within (cs : List Char) : Scan :=
  if cs.isEmpty then .between else .token cs

/-- Inside and before a token characters are read the same way. -/
theorem scanChar_within (position : Nat) (c : Char) :
    scanChar position c (within cs) = scanInToken cs position c := by
  cases cs <;> rfl

/-- The rest of a token without blanks is read to its end. -/
theorem scan_within {rest : List Char} (position : Nat) (h : IsToken (cs ++ rest))
    (hblank : ∀ c ∈ rest, isBlank c = false) :
    scan position (within cs) rest = (within (cs ++ rest), []) := by
  induction rest generalizing cs position with
  | nil => simp [scan]
  | cons c rest ih =>
    have hsplit : cs ++ c :: rest = (cs ++ [c]) ++ rest := by simp
    have hplain : ¬ (c = '"' ∧ opensQuote cs = true) := by
      rintro ⟨rfl, hopens⟩
      rw [h.unquoted cs rest rfl] at hopens
      cases hopens
    have hchar : scanInToken cs position c = (within (cs ++ [c]), []) := by
      have hinside : within (cs ++ [c]) = .token (cs ++ [c]) := by simp [within]
      rw [scanInToken, if_neg (by simp [hblank c List.mem_cons_self]), if_neg (by simpa using hplain),
        hinside]
    rw [hsplit] at h ⊢
    rw [scan, scanChar_within, hchar]
    simp only [List.nil_append]
    rw [ih (position + 1) h fun d hd => hblank d (List.mem_cons_of_mem _ hd)]

/-- A token without blanks is read back as one token. -/
theorem tokenizeChars_of_isToken (h : IsToken cs) (hblank : ∀ c ∈ cs, isBlank c = false) :
    tokenizeChars cs = .ok [cs] := by
  have hread : scan 0 (within []) cs = (within cs, []) := scan_within 0 h hblank
  have hend : within cs = .token cs := by simp [within, h.ne_nil]
  unfold tokenizeChars
  rw [show Scan.between = within [] from rfl, hread, hend]
  rfl

/-- Text without blanks and quotes is a token. -/
theorem isToken_of_plain (hnil : cs ≠ []) (hplain : ∀ c ∈ cs, isBlank c = false ∧ c ≠ '"') :
    IsToken cs := by
  constructor
  · exact hnil
  · intro c hc hblank
    rw [(hplain c hc).1] at hblank
    cases hblank
  · rintro before after rfl
    exact absurd rfl (hplain '"' (by simp)).2

/-! ## Tokens in lower case -/

/-- A key and a colon are that in lower case as well. -/
theorem opensQuote_of_lowered (h : Lowered cs ds) (hopens : opensQuote ds = true) :
    opensQuote cs = true := by
  obtain ⟨key, rfl, hnil, hkey⟩ := opensQuote_iff.1 hopens
  obtain ⟨as, bs, rfl, has, hbs⟩ := h.of_eq_append_cons (isCaseless_special.1 ':' (by simp))
  obtain rfl := hbs.eq_nil_iff.1 rfl
  refine opensQuote_iff.2 ⟨as, rfl, fun has' => hnil (has.eq_nil_iff.2 has'), fun c hc => ?_⟩
  have hmem (hcaseless : isCaseless c = true) : c ∈ key := (has.mem_iff hcaseless).2 hc
  refine ⟨?_, ?_, ?_⟩
  · cases hblank : isBlank c with
    | false => rfl
    | true =>
      rw [(hkey c (hmem (isCaseless_of_isBlank hblank))).1] at hblank
      cases hblank
  · rintro rfl
    exact (hkey _ (hmem (isCaseless_special.1 _ (by simp)))).2.1 rfl
  · rintro rfl
    exact (hkey _ (hmem (isCaseless_special.1 _ (by simp)))).2.2 rfl

/-- A token in lower case is a token. -/
theorem IsToken.lowered (h : IsToken cs) (hlowered : Lowered cs ds) : IsToken ds := by
  constructor
  · exact fun hnil => h.ne_nil (hlowered.eq_nil_iff.1 hnil)
  · intro c hc hblank
    exact h.blank c ((hlowered.mem_iff (isCaseless_of_isBlank hblank)).1 hc) hblank
  · rintro before after rfl
    obtain ⟨as, bs, rfl, has, -⟩ := hlowered.of_eq_append_cons (isCaseless_special.1 '"' (by simp))
    have hclosed := h.unquoted as bs rfl
    rw [← Bool.not_eq_true] at hclosed ⊢
    exact fun hopens => hclosed (opensQuote_of_lowered has hopens)

/-! ## Queries -/

/-- The tokens of a query are tokens. -/
theorem isToken_of_tokenize {query : String} {tokens : List String}
    (h : tokenize query = .ok tokens) : ∀ t ∈ tokens, IsToken t.toList := by
  unfold tokenize at h
  split at h
  next chars hchars =>
    obtain rfl := Except.ok.inj h
    intro t ht
    obtain ⟨cs, hcs, rfl⟩ := List.mem_map.1 ht
    rw [String.toList_ofList]
    exact isToken_of_tokenizeChars hchars cs hcs
  next => cases h

/-- A word without blanks and quotes is the one token of itself. -/
theorem tokenize_of_plain {word : String} (hnil : word ≠ "")
    (hplain : ∀ c ∈ word.toList, isBlank c = false ∧ c ≠ '"') : tokenize word = .ok [word] := by
  have htoken := isToken_of_plain (fun h => hnil (String.toList_eq_nil_iff.1 h)) hplain
  rw [tokenize, tokenizeChars_of_isToken htoken fun c hc => (hplain c hc).1]
  simp only [List.map_cons, List.map_nil, String.ofList_toList]

/-- A token in lower case that has no space is the one token of itself. -/
theorem tokenize_lowerString {token : String} (h : IsToken token.toList)
    (hspace : ' ' ∉ (lowerString token).toList) :
    tokenize (lowerString token) = .ok [lowerString token] := by
  rw [lowerString, String.toList_ofList] at hspace
  have hlowered := h.lowered (lowered_lower _)
  have hblank : ∀ c ∈ lower token.toList, isBlank c = false := by
    intro c hc
    rw [← Bool.not_eq_true]
    intro hblank
    exact hspace (hlowered.blank c hc hblank ▸ hc)
  rw [tokenize, lowerString, String.toList_ofList, tokenizeChars_of_isToken hlowered hblank]
  rfl

/-- The characters of a normal form. -/
theorem toList_normalizeTokens (tokens : List String) : (normalizeTokens tokens).toList =
    [' '].intercalate (tokens.map fun t => lower t.toList) := by
  rw [normalizeTokens, String.toList_intercalate, List.map_map]
  congr 1
  exact List.map_congr_left fun t _ => String.toList_ofList

/-- A normal form that is not empty and has no space is that of a single token. -/
theorem exists_eq_singleton_of_normalizeTokens {tokens : List String}
    (hnil : normalizeTokens tokens ≠ "") (hspace : ' ' ∉ (normalizeTokens tokens).toList) :
    ∃ token, tokens = [token] ∧ normalizeTokens tokens = lowerString token := by
  rcases tokens with _ | ⟨token, _ | ⟨next, rest⟩⟩
  · exact absurd rfl hnil
  · exact ⟨token, rfl, rfl⟩
  · rw [toList_normalizeTokens, List.map_cons, List.map_cons, List.intercalate_cons_cons] at hspace
    simp at hspace

end Imageboard.Query
