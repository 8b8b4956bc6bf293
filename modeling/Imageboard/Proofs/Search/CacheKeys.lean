import Imageboard.Proofs.Query.Classifying
import Imageboard.Proofs.Query.Stating
import Imageboard.Proofs.Query.Viewing
import Imageboard.Proofs.Search.Resolving
import Imageboard.Search.CountCache

/-!
# What the key of a count determines

The key of a count is made of the tokens of the query with its filters, in lower case and joined by
spaces. Two queries with one key are counted alike for two viewers if their tokens are the same or can
be told from the key, and if the viewers do not differ in what the terms look at. None of this goes
without saying: the key keeps neither who asks nor where a quoted value ends nor the letter case of a
value, and each of them can make a difference to the count.
-/

namespace Imageboard

namespace Query

/-! ## Tokens told by their normal form -/

/-- Whether tokens can be told from their lower case as far as their terms go: none has a space, and
tokens with values that are one in lower case are one. -/
structure ToldInLowerCase (tokens others : List String) : Prop where
  space : ∀ t ∈ tokens, ' ' ∉ t.toList
  space' : ∀ t ∈ others, ' ' ∉ t.toList
  value : ∀ t ∈ tokens, ∀ u ∈ others, ':' ∈ t.toList → Text.lowerString t = Text.lowerString u → t = u

instance (tokens others : List String) : Decidable (ToldInLowerCase tokens others) :=
  decidable_of_iff ((∀ t ∈ tokens, ' ' ∉ t.toList) ∧ (∀ t ∈ others, ' ' ∉ t.toList) ∧
      ∀ t ∈ tokens, ∀ u ∈ others, ':' ∈ t.toList → Text.lowerString t = Text.lowerString u → t = u)
    ⟨fun h => ⟨h.1, h.2.1, h.2.2⟩, fun h => ⟨h.space, h.space', h.value⟩⟩

variable {token other : String} {tokens others : List String}

/-- A token without spaces has no blanks. -/
theorem IsToken.not_isBlank {cs : List Char} (h : IsToken cs) (hspace : ' ' ∉ cs) :
    ∀ c ∈ cs, Text.isBlank c = false := by
  intro c hc
  rw [← Bool.not_eq_true]
  intro hblank
  exact hspace (h.blank c hc hblank ▸ hc)

/-- The lower case of a token without spaces is not empty and has no space. -/
theorem IsToken.lower_ne_nil {cs : List Char} (h : IsToken cs) (hspace : ' ' ∉ cs) :
    Text.lower cs ≠ [] ∧ ' ' ∉ Text.lower cs := by
  have hlowered := Text.lowered_lower cs
  constructor
  · exact fun hnil => h.ne_nil (hlowered.eq_nil_iff.1 hnil)
  · rwa [hlowered.mem_iff (Text.isCaseless_of_isBlank (by decide))]

/-- Pieces that are joined to nothing are none, unless they are empty. -/
theorem eq_nil_of_intercalate_eq_nil {α : Type} {x : α} {ls : List (List α)}
    (hls : ∀ l ∈ ls, l ≠ []) (h : [x].intercalate ls = []) : ls = [] := by
  rcases ls with _ | ⟨l, _ | ⟨m, rest⟩⟩
  · rfl
  · rw [List.intercalate_singleton] at h
    exact absurd h (hls l List.mem_cons_self)
  · simp [List.intercalate_cons_cons] at h

/-- Pieces that are not empty and have no separator are told by what they are joined to. -/
theorem intercalate_inj {α : Type} [DecidableEq α] {x : α} {ls ms : List (List α)}
    (hls : ∀ l ∈ ls, l ≠ [] ∧ x ∉ l) (hms : ∀ l ∈ ms, l ≠ [] ∧ x ∉ l)
    (h : [x].intercalate ls = [x].intercalate ms) : ls = ms := by
  by_cases hnil : ls = []
  · subst hnil
    exact (eq_nil_of_intercalate_eq_nil (fun l hl => (hms l hl).1) h.symm).symm
  by_cases hnil' : ms = []
  · subst hnil'
    exact eq_nil_of_intercalate_eq_nil (fun l hl => (hls l hl).1) h
  calc ls
    _ = ([x].intercalate ls).splitOn x :=
      (List.splitOn_intercalate x (fun l hl => (hls l hl).2) hnil).symm
    _ = ([x].intercalate ms).splitOn x := by rw [h]
    _ = ms := List.splitOn_intercalate x (fun l hl => (hms l hl).2) hnil'

/-- In lower case, tokens without spaces are told by the normal form. -/
theorem map_lowerString_eq_of_normalizeTokens
    (htokens : ∀ t ∈ tokens, IsToken t.toList ∧ ' ' ∉ t.toList)
    (hothers : ∀ t ∈ others, IsToken t.toList ∧ ' ' ∉ t.toList)
    (h : normalizeTokens tokens = normalizeTokens others) :
    tokens.map Text.lowerString = others.map Text.lowerString := by
  have hpieces {ts : List String} (hts : ∀ t ∈ ts, IsToken t.toList ∧ ' ' ∉ t.toList) :
      ∀ l ∈ ts.map fun t => Text.lower t.toList, l ≠ [] ∧ ' ' ∉ l := by
    intro l hl
    obtain ⟨t, ht, rfl⟩ := List.mem_map.1 hl
    exact (hts t ht).1.lower_ne_nil (hts t ht).2
  have hjoined : [' '].intercalate (tokens.map fun t => Text.lower t.toList) =
      [' '].intercalate (others.map fun t => Text.lower t.toList) := by
    rw [← toList_normalizeTokens, ← toList_normalizeTokens, h]
  have hlower := congrArg (List.map String.ofList)
    (intercalate_inj (hpieces htokens) (hpieces hothers) hjoined)
  rw [List.map_map, List.map_map] at hlower
  exact hlower

/-- Tokens that can be told from their lower case are read as terms with the same keys if they are the
same in lower case. -/
theorem map_key_classify_eq {metatags : List String}
    (htokens : ∀ t ∈ tokens, IsToken t.toList) (hothers : ∀ t ∈ others, IsToken t.toList)
    (htold : ToldInLowerCase tokens others)
    (h : tokens.map Text.lowerString = others.map Text.lowerString) :
    (classify metatags tokens).map Term.key = (classify metatags others).map Term.key := by
  induction tokens generalizing others with
  | nil => rw [List.map_eq_nil_iff.1 h.symm]
  | cons token rest ih =>
    cases others with
    | nil => cases h
    | cons other others =>
      rw [List.forall_mem_cons] at htokens hothers
      obtain ⟨hlower, hrest⟩ := List.cons.inj h
      have hkey : (classifyToken metatags token).key = (classifyToken metatags other).key := by
        by_cases hcolon : ':' ∈ token.toList
        · rw [htold.value token List.mem_cons_self other List.mem_cons_self hcolon hlower]
        · exact key_classifyToken_eq (htokens.1.not_isBlank (htold.space _ List.mem_cons_self))
            (hothers.1.not_isBlank (htold.space' _ List.mem_cons_self)) hcolon hlower
      have htold' : ToldInLowerCase rest others :=
        ⟨fun t ht => htold.space t (List.mem_cons_of_mem _ ht),
          fun t ht => htold.space' t (List.mem_cons_of_mem _ ht),
          fun t ht u hu => htold.value t (List.mem_cons_of_mem _ ht) u (List.mem_cons_of_mem _ hu)⟩
      have hkeys := ih htokens.2 hothers.2 htold' hrest
      simp only [classify, List.map_cons] at hkeys ⊢
      rw [hkey, hkeys]

/-- Tokens with one normal form are read as terms with the same keys if they are the same or can be told
from their lower case. -/
theorem map_key_classify_eq_of_normalizeTokens {metatags : List String}
    (htokens : ∀ t ∈ tokens, IsToken t.toList) (hothers : ∀ t ∈ others, IsToken t.toList)
    (htold : tokens = others ∨ ToldInLowerCase tokens others)
    (h : normalizeTokens tokens = normalizeTokens others) :
    (classify metatags tokens).map Term.key = (classify metatags others).map Term.key := by
  rcases htold with rfl | htold
  · rfl
  · exact map_key_classify_eq htokens hothers htold (map_lowerString_eq_of_normalizeTokens
      (fun t ht => ⟨htokens t ht, htold.space t ht⟩) (fun t ht => ⟨hothers t ht, htold.space' t ht⟩) h)

section Plans

variable {config : Config} {resolve : String → String} {viewer visitor : Viewer} {now : Moment}
  {ts us : List Term} {d e : Draft}

/-- Terms with the same keys lead to one draft for viewers who do not differ in what they look at. -/
theorem draftOf_eq_of_map_key (hkeys : ts.map Term.key = us.map Term.key)
    (hpersonal : SameIdentity viewer visitor ∨ ∀ t ∈ ts, t.isPersonal config = false)
    (hd : draftOf config resolve viewer now ts = .ok d)
    (he : draftOf config resolve visitor now us = .ok e) : d = e := by
  have hadd : Draft.addTerms config resolve viewer now .empty (firstOfEach Term.key [] ts) =
      Draft.addTerms config resolve visitor now .empty (firstOfEach Term.key [] us) := by
    refine Draft.addTerms_congr_viewer (map_firstOfEach_congr hkeys) fun t ht => ?_
    exact hpersonal.imp_right fun h => h t ((firstOfEach_sublist [] ts).mem ht)
  -- Whether there are too many tags depends on the tokens, but both drafts are there.
  unfold draftOf at hd he
  split at hd
  · cases hd
  split at he
  · cases he
  rw [hadd, he] at hd
  exact (Except.ok.inj hd).symm

end Plans

end Query

namespace Search

open Query

/-- Counting by a plan does not look at the text of the query. -/
theorem countPosts_withQuery (plan : Plan) (query : String) :
    countPosts { plan with query := query } = countPosts plan := rfl

/-- Without filters, a draft is counted for all viewers alike. -/
theorem countPosts_finish_withoutFilters (d : Draft) (viewer visitor : Viewer) (query text : String) :
    countPosts (d.finish viewer.withoutFilters query) =
      countPosts (d.finish visitor.withoutFilters text) :=
  countPosts_withQuery (d.finish visitor.withoutFilters text) query

end Search

namespace Searcher

open Query

variable {config : Config} {resolve : String → String} {viewer visitor : Viewer} {clock : Moment}
  {query text effective effective' : String} {plan plan' : Plan}

/-- Queries with one key have the same tokens in lower case, joined by spaces. -/
theorem normalizeTokens_eq_of_cacheKey {tokens others : List String}
    (heffective : effectiveQuery config viewer query = .ok effective)
    (heffective' : effectiveQuery config visitor text = .ok effective')
    (hkey : cacheKey config viewer query = cacheKey config visitor text)
    (htokens : tokenize effective = .ok tokens) (hothers : tokenize effective' = .ok others) :
    normalizeTokens tokens = normalizeTokens others := by
  simp only [cacheKey, heffective, heffective', Query.normalize, htokens, hothers, Except.map,
    Except.ok.injEq, String.append_right_inj] at hkey
  exact hkey

/-- Two queries with one key are counted alike, in every store, by the plans that are made of them with
their filters: if their tokens are the same or can be told from their lower case, and if the viewers go
by one name and may see the same votes or no term looks at that. -/
theorem countPosts_eq_of_cacheKey_eq
    (heffective : effectiveQuery config viewer query = .ok effective)
    (heffective' : effectiveQuery config visitor text = .ok effective')
    (hkey : cacheKey config viewer query = cacheKey config visitor text)
    (hnow : referenceMoment viewer clock = referenceMoment visitor clock)
    (hcompile : Query.compile config resolve viewer.withoutFilters clock effective = .ok plan)
    (hcompile' : Query.compile config resolve visitor.withoutFilters clock effective' = .ok plan')
    (htold : ∀ tokens others, tokenize effective = .ok tokens → tokenize effective' = .ok others →
      tokens = others ∨ ToldInLowerCase tokens others)
    (hpersonal : SameIdentity viewer visitor ∨
      ∀ ts, readTerms config effective = .ok ts → ∀ t ∈ ts, t.isPersonal config = false) :
    Search.countPosts plan = Search.countPosts plan' := by
  obtain ⟨ts, d, hread, hd, rfl⟩ := extends_of_compile hcompile
  obtain ⟨us, e, hread', he, rfl⟩ := extends_of_compile hcompile'
  obtain ⟨tokens, htokens, rfl⟩ := exists_of_map_eq_ok hread
  obtain ⟨others, hothers, rfl⟩ := exists_of_map_eq_ok hread'
  have hnormal := normalizeTokens_eq_of_cacheKey heffective heffective' hkey htokens hothers
  have hkeys : (classify (Registry.ofCategories config.categories).names tokens).map Term.key =
      (classify (Registry.ofCategories config.categories).names others).map Term.key :=
    map_key_classify_eq_of_normalizeTokens (isToken_of_tokenize htokens) (isToken_of_tokenize hothers)
      (htold tokens others htokens hothers) hnormal
  have hpersonal' : SameIdentity viewer.withoutFilters visitor.withoutFilters ∨
      ∀ t ∈ classify (Registry.ofCategories config.categories).names tokens,
        t.isPersonal config = false := hpersonal.imp id fun h => h _ hread
  have hnow' : referenceMoment viewer.withoutFilters clock =
      referenceMoment visitor.withoutFilters clock := hnow
  rw [← hnow'] at he
  obtain rfl := draftOf_eq_of_map_key hkeys hpersonal' hd he
  exact Search.countPosts_finish_withoutFilters d viewer visitor effective effective'

/-- A visitor who may see the votes of others. -/
def moderator : Viewer :=
  { Viewer.anonymous with isModerator := true }

/-- Cats without dogs are counted for a moderator as for others, however the query is written. -/
theorem countPosts_eq_of_cacheKey_eq_cats :
    cacheKey .standard moderator "Cat -dog" = cacheKey .standard .anonymous "cat  -DOG" ∧
      Search.countPosts ⟨[⟨"cat", false⟩], [⟨"dog", false⟩], [], [], .standard, none, "Cat -dog"⟩ =
        Search.countPosts ⟨[⟨"cat", false⟩], [⟨"dog", false⟩], [], [], .standard, none,
          "cat  -DOG"⟩ := by
  have hkey : cacheKey .standard moderator "Cat -dog" = cacheKey .standard .anonymous "cat  -DOG" := by
    decide +kernel
  have htokens : tokenize "Cat -dog" = .ok ["Cat", "-dog"] := by decide +kernel
  have hothers : tokenize "cat  -DOG" = .ok ["cat", "-DOG"] := by decide +kernel
  have htold : ∀ tokens others, tokenize "Cat -dog" = .ok tokens → tokenize "cat  -DOG" = .ok others →
      tokens = others ∨ ToldInLowerCase tokens others := by
    intro tokens others h h'
    rw [← Except.ok.inj (htokens.symm.trans h), ← Except.ok.inj (hothers.symm.trans h')]
    exact Or.inr (by decide)
  have hpersonal : ∀ ts, readTerms .standard "Cat -dog" = .ok ts →
      ∀ t ∈ ts, t.isPersonal .standard = false := by
    intro ts h
    have hread : readTerms .standard "Cat -dog" = .ok [⟨.tag, .required, "cat", none, "Cat"⟩,
        ⟨.tag, .negated, "dog", none, "-dog"⟩] := by
      decide +kernel
    rw [← Except.ok.inj (hread.symm.trans h)]
    decide
  have hcompile : Query.compile .standard id moderator.withoutFilters ⟨0, 0⟩ "Cat -dog" =
      .ok ⟨[⟨"cat", false⟩], [⟨"dog", false⟩], [], [], .standard, none, "Cat -dog"⟩ := by
    decide +kernel
  have hcompile' : Query.compile .standard id Viewer.anonymous.withoutFilters ⟨0, 0⟩ "cat  -DOG" =
      .ok ⟨[⟨"cat", false⟩], [⟨"dog", false⟩], [], [], .standard, none, "cat  -DOG"⟩ := by
    decide +kernel
  exact ⟨hkey, countPosts_eq_of_cacheKey_eq rfl rfl hkey rfl hcompile hcompile' htold
    (Or.inr hpersonal)⟩

/-- Whether two queries have one key for two viewers and are counted differently in a store. -/
structure CountedApart (s : Store) (viewer visitor : Viewer) (query text : String) : Prop where
  key : cacheKey .standard viewer query = cacheKey .standard visitor text
  counts : ∃ effective effective' plan plan' n m,
    effectiveQuery .standard viewer query = .ok effective ∧
    effectiveQuery .standard visitor text = .ok effective' ∧
    Query.compile .standard s.contents.standsFor viewer.withoutFilters s.clock effective = .ok plan ∧
    Query.compile .standard s.contents.standsFor visitor.withoutFilters s.clock effective' = .ok plan' ∧
    ((Search.countPosts plan).runOn s).1 = .ok n ∧ ((Search.countPosts plan').runOn s).1 = .ok m ∧
    n ≠ m

/-- A store with one post, for which bob has voted; Émile has taken it from a place with a space. -/
def votedStore : Store :=
  let c : Contents := { Contents.empty with
    users := [⟨1, "bob", .null⟩, ⟨2, "Émile", .null⟩]
    posts := [{ PostDraft.toPost {} 1 .null with uploaderId := some 2, source := "a b" }]
    votes := [⟨1, 1, 1, .null⟩] }
  .ofContents c ⟨0, 0⟩ .standard

/-- The key does not say who asks: a moderator may see the votes of bob, and others may not. -/
theorem countedApart_votes : CountedApart votedStore moderator .anonymous "upvote:bob" "upvote:bob" where
  key := by decide +kernel
  counts := by
    refine ⟨_, _, ⟨[], [], [], [⟨.relation .upvote (.text "bob"), false⟩], .standard, none,
      "upvote:bob"⟩, ⟨[], [], [], [⟨.never "upvote votes are private", false⟩], .standard, none,
      "upvote:bob"⟩, 1, 0, rfl, rfl, ?_⟩
    decide +kernel

/-- The key does not say where a value ends: a space is part of a value in quotes, and without them what
follows it is a tag. -/
theorem countedApart_quoted :
    CountedApart votedStore .anonymous .anonymous "source:\"a b\"" "source:a b" where
  key := by decide +kernel
  counts := by
    refine ⟨_, _, ⟨[], [], [], [⟨.pattern .source "a b*", false⟩], .standard, none,
      "source:\"a b\""⟩, ⟨[⟨"b", false⟩], [], [], [⟨.pattern .source "a*", false⟩], .standard, none,
      "source:a b"⟩, 1, 0, rfl, rfl, ?_⟩
    decide +kernel

/-- The key does not keep the letter case of a value, by which users are told apart if their names have
letters beyond ASCII. -/
theorem countedApart_letterCase :
    CountedApart votedStore .anonymous .anonymous "user:Émile" "user:émile" where
  key := by decide +kernel
  counts := by
    refine ⟨_, _, ⟨[], [], [], [⟨.relation .uploader (.text "Émile"), false⟩], .standard, none,
      "user:Émile"⟩, ⟨[], [], [], [⟨.relation .uploader (.text "émile"), false⟩], .standard, none,
      "user:émile"⟩, 1, 0, rfl, rfl, ?_⟩
    decide +kernel

end Searcher

end Imageboard
