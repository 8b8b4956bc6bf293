import Imageboard.Proofs.Query.Classifying
import Imageboard.Proofs.Query.Drafting
import Imageboard.Proofs.Query.Joining
import Imageboard.Search.CountCache
import Mathlib.Data.Bool.AllAny

/-!
# The filters of a viewer as terms

To count what a viewer sees, the filters of the viewer are put after the query as terms. A space keeps
them apart from the query and from each other, so that a query with its filters is read as the terms of
the query and those of the filters, and a quote that stands open in the query stands open with them too.
-/

namespace Imageboard.Search

open Query

/-- The term that keeps to safe posts. -/
def safeTerm : Term :=
  ⟨.metatag, .required, "rating", some "s", "rating:s"⟩

/-- The term that leaves deleted posts out. -/
def undeletedTerm : Term :=
  ⟨.metatag, .negated, "status", some "deleted", "-status:deleted"⟩

/-- Whether a term on the status is among some terms. -/
def mentionsStatus (ts : List Term) : Bool :=
  ts.any fun t => t.kind = .metatag && t.name = "status"

/-- The filters of a viewer as terms after the terms of a query. -/
def filterTerms (viewer : Viewer) (ts : List Term) : List Term :=
  (if viewer.safeMode then [safeTerm] else []) ++
    (if viewer.hideDeleted && !mentionsStatus ts then [undeletedTerm] else [])

/-! ## Reading the query with its filters -/

section Reading

variable {config : Config} {query : String} {ts : List Term}

/-- After blanks terms are read as on their own. -/
theorem readTerms_append {gap more : String} {us : List Term} (h : readTerms config query = .ok ts)
    (hmore : readTerms config more = .ok us) (hnil : gap ≠ "")
    (hblank : ∀ c ∈ gap.toList, Text.isBlank c = true) :
    readTerms config (query ++ gap ++ more) = .ok (ts ++ us) := by
  unfold readTerms at h hmore ⊢
  cases htokens : tokenize query with
  | error e => simp [htokens, Except.map] at h
  | ok tokens =>
    cases hothers : tokenize more with
    | error e => simp [hothers, Except.map] at hmore
    | ok others =>
      rw [htokens] at h
      rw [hothers] at hmore
      rw [(tokenize_append more htokens hnil hblank).1 others hothers, ← Except.ok.inj h,
        ← Except.ok.inj hmore]
      simp [Except.map, classify]

/-- A query that cannot be read is one that has no tokens. -/
theorem tokenize_of_readTerms_error {e : Failure} (h : readTerms config query = .error e) :
    tokenize query = .error e := by
  unfold readTerms at h
  cases htokens : tokenize query with
  | error e' =>
    rw [htokens, Except.map] at h
    rw [Except.error.inj h]
  | ok tokens => simp [htokens, Except.map] at h

/-- Every board has the metatags that do not depend on its categories. -/
theorem mem_names_of_fixed (categories : Categories) {name : String}
    (h : name ∈ Registry.fixed.map (·.1)) : name ∈ (Registry.ofCategories categories).names := by
  rw [Registry.names, Registry.ofCategories, List.map_append, mem_distinct]
  exact List.mem_append_left _ h

/-- A word without blanks and quotes is the one term that it is read as. -/
theorem readTerms_of_plain (config : Config) {word : String} {t : Term} (hnil : word ≠ "")
    (hplain : ∀ c ∈ word.toList, Text.isBlank c = false ∧ c ≠ '"')
    (hterm : classifyToken (Registry.ofCategories config.categories).names word = t) :
    readTerms config word = .ok [t] := by
  rw [readTerms, tokenize_of_plain hnil hplain, ← hterm]
  rfl

/-- The filter on the rating is read as its term. -/
theorem readTerms_safe (config : Config) : readTerms config "rating:s" = .ok [safeTerm] :=
  readTerms_of_plain config (by decide) (List.all_iff_forall_prop.1 (by decide))
    (classifyToken_of_metatag rfl (by decide) rfl (by decide +kernel) (by decide)
      (mem_names_of_fixed config.categories (by decide)))

/-- The filter on deleted posts is read as its term. -/
theorem readTerms_undeleted (config : Config) :
    readTerms config "-status:deleted" = .ok [undeletedTerm] :=
  readTerms_of_plain config (by decide) (List.all_iff_forall_prop.1 (by decide))
    (classifyToken_of_metatag rfl (by decide) rfl (by decide +kernel) (by decide)
      (mem_names_of_fixed config.categories (by decide)))

/-- A query mentions the status if one of its terms is on it. -/
theorem mentionsStatus_of_readTerms (h : readTerms config query = .ok ts) :
    Searcher.mentionsStatus config query = .ok (mentionsStatus ts) := by
  have hany : (firstOfEach Term.key [] ts).any (fun t => t.kind = .metatag && t.name = "status") =
      mentionsStatus ts := by
    rw [mentionsStatus, Bool.eq_iff_iff, List.any_eq_true, List.any_eq_true]
    exact exists_mem_distinct_iff fun _ _ h => h
  rw [Searcher.mentionsStatus, terms_eq_map_readTerms, h]
  exact congrArg Except.ok hany

/-- A query that can be read has a query with filters, which is read as its terms and those of the
filters. -/
theorem exists_effectiveQuery (viewer : Viewer) (h : readTerms config query = .ok ts) :
    ∃ effective, Searcher.effectiveQuery config viewer query = .ok effective ∧
      readTerms config effective = .ok (ts ++ filterTerms viewer ts) := by
  have happend {text word : String} {us : List Term} {t : Term} (mark : String) (hmark : mark = " " ++ word)
      (htext : readTerms config text = .ok us) (hword : readTerms config word = .ok [t]) :
      readTerms config (text ++ mark) = .ok (us ++ [t]) := by
    rw [hmark, ← String.append_assoc]
    exact readTerms_append htext hword (by decide) (List.all_iff_forall_prop.1 (by decide))
  have hsafe : readTerms config (if viewer.safeMode then query ++ " rating:s" else query) =
      .ok (ts ++ if viewer.safeMode then [safeTerm] else []) := by
    split
    · exact happend _ rfl h (readTerms_safe config)
    · rw [h, List.append_nil]
  have hmentioned : mentionsStatus (ts ++ if viewer.safeMode then [safeTerm] else []) =
      mentionsStatus ts := by
    split <;> simp [mentionsStatus, safeTerm]
  unfold Searcher.effectiveQuery filterTerms
  dsimp only
  generalize (if viewer.safeMode then query ++ " rating:s" else query) = safe at hsafe
  rw [mentionsStatus_of_readTerms hsafe, hmentioned]
  by_cases hhide : viewer.hideDeleted = true
  · rw [if_pos hhide, hhide]
    cases hstatus : mentionsStatus ts with
    | true => exact ⟨safe, rfl, by simpa using hsafe⟩
    | false =>
      have hundeleted := happend " -status:deleted" rfl hsafe (readTerms_undeleted config)
      exact ⟨safe ++ " -status:deleted", rfl, by simpa using hundeleted⟩
  · rw [if_neg hhide]
    exact ⟨safe, rfl, by simpa [hhide] using hsafe⟩

/-- A query whose quote stands open cannot be read with its filters, and the quote is where it was. -/
theorem effectiveQuery_of_error (viewer : Viewer) {e : Failure}
    (h : readTerms config query = .error e) :
    ∃ position, e = .unterminatedQuote query position ∧ ∃ other,
      (Searcher.effectiveQuery config viewer query = .error (.unterminatedQuote other position) ∨
        Searcher.effectiveQuery config viewer query = .ok other ∧
          tokenize other = .error (.unterminatedQuote other position)) := by
  obtain ⟨position, rfl, happend⟩ := tokenize_append_of_error " rating:s"
    (tokenize_of_readTerms_error h) (by decide)
  refine ⟨position, rfl, if viewer.safeMode then query ++ " rating:s" else query, ?_⟩
  have hsafe : tokenize (if viewer.safeMode then query ++ " rating:s" else query) =
      .error (.unterminatedQuote (if viewer.safeMode then query ++ " rating:s" else query)
        position) := by
    split
    · exact happend
    · exact tokenize_of_readTerms_error h
  unfold Searcher.effectiveQuery
  dsimp only
  generalize (if viewer.safeMode then query ++ " rating:s" else query) = safe at hsafe
  by_cases hhide : viewer.hideDeleted = true
  · rw [if_pos hhide, Searcher.mentionsStatus, Query.terms, hsafe]
    exact Or.inl rfl
  · rw [if_neg hhide]
    exact Or.inr ⟨rfl, hsafe⟩

/-- Blanks keep the tokens of a query apart from what follows. After them any text has the tokens that
it has on its own, or a quote that stands open where it does there, counted from the start of the whole.
So for every board and viewer the filters are read as terms of their own after those of the query. -/
theorem tokenize_across_blanks {tokens : List String} (h : tokenize query = .ok tokens) :
    (∀ gap more, gap ≠ "" → (∀ c ∈ gap.toList, Text.isBlank c = true) →
      (∀ others, tokenize more = .ok others →
        tokenize (query ++ gap ++ more) = .ok (tokens ++ others)) ∧
      ∀ e, tokenize more = .error e → ∃ position, e = .unterminatedQuote more position ∧
        tokenize (query ++ gap ++ more) = .error (.unterminatedQuote (query ++ gap ++ more)
          (query.length + gap.length + position))) ∧
    ∀ config viewer, ∃ ts effective, readTerms config query = .ok ts ∧
      Searcher.effectiveQuery config viewer query = .ok effective ∧
      readTerms config effective = .ok (ts ++ filterTerms viewer ts) := by
  refine ⟨fun gap more hnil hblank => tokenize_append more h hnil hblank, fun config viewer => ?_⟩
  have hread : readTerms config query =
      .ok (classify (Registry.ofCategories config.categories).names tokens) := by
    rw [readTerms, h]
    rfl
  obtain ⟨effective, heffective, hfiltered⟩ := exists_effectiveQuery viewer hread
  exact ⟨_, effective, hread, heffective, hfiltered⟩

/-- A wide space keeps a quoted value apart from two tags, and from a quote that stands open; the filters
become two more terms. -/
theorem tokenize_across_wide_space :
    tokenize "source:\" a  b \"" = .ok ["source:a b"] ∧
      tokenize ("source:\" a  b \"" ++ "\u3000" ++ "cat -dog") = .ok ["source:a b", "cat", "-dog"] ∧
      tokenize ("source:\" a  b \"" ++ "\u3000" ++ "user:\"me") =
        .error (.unterminatedQuote ("source:\" a  b \"" ++ "\u3000" ++ "user:\"me") 21) ∧
      ∃ effective, Searcher.effectiveQuery .standard
          { Viewer.anonymous with safeMode := true, hideDeleted := true } "source:\" a  b \"" =
          .ok effective ∧
        readTerms .standard effective =
          .ok [⟨.metatag, .required, "source", some "a b", "source:a b"⟩, safeTerm, undeletedTerm] := by
  have hquery : tokenize "source:\" a  b \"" = .ok ["source:a b"] := rfl
  obtain ⟨happend, hfilters⟩ := tokenize_across_blanks hquery
  have hwide (more : String) := happend "\u3000" more (by decide) (List.all_iff_forall_prop.1 (by decide))
  obtain ⟨position, hposition, hopen⟩ := (hwide "user:\"me").2 (.unterminatedQuote "user:\"me" 5) rfl
  obtain ⟨-, rfl⟩ := Failure.unterminatedQuote.inj hposition
  obtain ⟨ts, effective, hts, heffective, hread⟩ :=
    hfilters .standard { Viewer.anonymous with safeMode := true, hideDeleted := true }
  have hterms : readTerms .standard "source:\" a  b \"" =
      .ok [⟨.metatag, .required, "source", some "a b", "source:a b"⟩] := by decide +kernel
  obtain rfl : [⟨.metatag, .required, "source", some "a b", "source:a b"⟩] = ts :=
    Except.ok.inj (hterms.symm.trans hts)
  exact ⟨hquery, (hwide "cat -dog").1 ["cat", "-dog"] rfl, hopen, effective, heffective, hread⟩

end Reading

end Imageboard.Search
