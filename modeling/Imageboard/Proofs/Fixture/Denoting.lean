import Imageboard.Fixture.Import
import Imageboard.Proofs.Tagging.Substituting
import Mathlib.Data.List.TakeWhile

/-!
# What the tokens of a fixture denote

A token denotes a tag name in its stored spelling. The part before its first colon may name a category;
then the token denotes the name behind the colon, given with that category. Tokens hold no blanks, so the
names that they denote can be stored.
-/

namespace Imageboard

namespace Fixture

open Text

/-- What a token denotes: a tag name, and the code of the category that the name is given with. The part
before the first colon is taken for a category if it names one and something follows the colon. -/
inductive Denotes (categories : Categories) (token : String) : String → Option Int → Prop
  | given {before name : List Char} {c : Category} (htoken : token.toList = before ++ ':' :: name)
      (hfirst : ':' ∉ before) (hname : name ≠ [])
      (hfound : categories.find? (String.ofList before) = some c) :
      Denotes categories token (TagName.normalize (String.ofList name)) (some c.code)
  | plain (hnone : ∀ before name, token.toList = before ++ ':' :: name → ':' ∉ before → name ≠ [] →
        categories.find? (String.ofList before) = none) :
      Denotes categories token (TagName.normalize token) none

variable {categories : Categories} {token tagString name : String} {code : Option Int}

/-- The part of a text before its first colon. -/
theorem takeWhile_of_colon {before rest : List Char} (hfirst : ':' ∉ before) :
    (before ++ ':' :: rest).takeWhile (· ≠ ':') = before := by
  have hall : ∀ c ∈ before, decide (c ≠ ':') = true := fun c hc =>
    decide_eq_true fun heq => hfirst (heq ▸ hc)
  rw [List.takeWhile_append_of_pos hall, List.takeWhile_cons_of_neg (by simp), List.append_nil]

/-- A token with a colon is split there if the part before names a category and something follows. -/
theorem splitCategory_of_colon {before rest : List Char} (htoken : token.toList = before ++ ':' :: rest)
    (hfirst : ':' ∉ before) :
    splitCategory categories token =
      if rest = [] then (TagName.normalize token, none)
      else match categories.find? (String.ofList before) with
        | some c => (TagName.normalize (String.ofList rest), some c.code)
        | none => (TagName.normalize token, none) := by
  have hdrop : (before ++ ':' :: rest).drop (before.length + 1) = rest := by
    simp [List.drop_append]
  unfold splitCategory
  simp only [htoken, takeWhile_of_colon hfirst, hdrop]
  cases rest with
  | nil => rfl
  | cons c rest => exact (if_neg (List.cons_ne_nil c rest)).symm

/-- A token without a colon is not split. -/
theorem splitCategory_of_not_mem (h : ':' ∉ token.toList) :
    splitCategory categories token = (TagName.normalize token, none) := by
  have hall : ∀ c ∈ token.toList, decide (c ≠ ':') = true := fun c hc =>
    decide_eq_true fun heq => h (heq ▸ hc)
  unfold splitCategory
  simp only [List.takeWhile_eq_self_iff.2 hall, List.drop_eq_nil_of_le (Nat.le_succ _)]

/-- A token denotes the name that it is split into, with its category. -/
theorem denotes_splitCategory (categories : Categories) (token : String) :
    Denotes categories token (splitCategory categories token).1 (splitCategory categories token).2 := by
  by_cases hcolon : ':' ∈ token.toList
  · obtain ⟨before, rest, htoken, hfirst⟩ := List.eq_append_cons_of_mem hcolon
    have hunique {before' rest' : List Char} (htoken' : token.toList = before' ++ ':' :: rest')
        (hfirst' : ':' ∉ before') : before' = before ∧ rest' = rest := by
      have hbefore : before' = before := by
        have hsame := takeWhile_of_colon hfirst' ▸ congrArg (List.takeWhile (· ≠ ':')) htoken'
        rw [← hsame, htoken, takeWhile_of_colon hfirst]
      subst hbefore
      have := List.append_cancel_left (htoken'.symm.trans htoken)
      exact ⟨rfl, (List.cons.inj this).2⟩
    rw [splitCategory_of_colon htoken hfirst]
    split
    next hrest =>
      refine .plain fun before' rest' htoken' hfirst' hname => ?_
      exact absurd ((hunique htoken' hfirst').2.trans hrest) hname
    next hrest =>
      split
      next c hfound => exact .given htoken hfirst hrest hfound
      next hnone =>
        refine .plain fun before' rest' htoken' hfirst' _ => ?_
        rwa [(hunique htoken' hfirst').1]
  · rw [splitCategory_of_not_mem hcolon]
    refine .plain fun before rest htoken _ _ => absurd ?_ hcolon
    rw [htoken]
    simp

/-- What a token denotes is what it is split into. -/
theorem Denotes.splitCategory_eq (h : Denotes categories token name code) :
    splitCategory categories token = (name, code) := by
  cases h with
  | given htoken hfirst hname hfound =>
    rw [splitCategory_of_colon htoken hfirst, if_neg hname, hfound]
  | plain hnone =>
    by_cases hcolon : ':' ∈ token.toList
    · obtain ⟨before, rest, htoken, hfirst⟩ := List.eq_append_cons_of_mem hcolon
      rw [splitCategory_of_colon htoken hfirst]
      split
      next => rfl
      next hrest => rw [hnone before rest htoken hfirst hrest]
    · exact splitCategory_of_not_mem hcolon

/-- A token denotes what it is split into, and nothing else. -/
theorem denotes_iff : Denotes categories token name code ↔
    splitCategory categories token = (name, code) := by
  refine ⟨Denotes.splitCategory_eq, fun h => ?_⟩
  have hdenotes := denotes_splitCategory categories token
  rwa [h] at hdenotes

/-- The names that the tokens of a text denote can be stored. -/
theorem Denotes.storable (h : Denotes categories token name code) (htoken : token ∈ tokens tagString) :
    TagName.Storable name := by
  obtain ⟨word, hword, rfl⟩ := List.mem_map.1 htoken
  obtain ⟨hne, hblank⟩ := word_of_mem_words hword
  have hstorable {cs : List Char} (hcs : cs ≠ []) (hblank : ∀ c ∈ cs, isBlank c = false) :
      TagName.Storable (TagName.normalize (String.ofList cs)) := by
    refine TagName.storable_normalize fun hempty => hcs ?_
    rw [TagName.normalize, String.toList_ofList, Query.normalizeChars_of_not_isBlank hblank] at hempty
    exact (lowered_lower cs).eq_nil_iff.1 (by simpa using hempty)
  cases h with
  | given htoken _ hname _ =>
    refine hstorable hname fun c hc => hblank c ?_
    rw [← String.toList_ofList (l := word), htoken]
    simp [hc]
  | plain => exact hstorable hne hblank

/-! ## Rows with tags -/

/-- Whether the tags of a row are not all blank. -/
def Row.isTagged (r : Row) : Bool :=
  (r.tagString.getD "").toList.any (!isBlank ·)

/-- Nothing is left of a text without the blanks around it exactly if all of it is blank. -/
theorem trim_eq_nil_iff {cs : List Char} : trim cs = [] ↔ ∀ c ∈ cs, isBlank c = true := by
  have htrimmed {ds : List Char} : trimStart ds = [] ↔ ∀ c ∈ ds, isBlank c = true := by
    simp [trimStart, List.dropWhile_eq_nil_iff]
  have hstart : (∀ c ∈ trimStart cs, isBlank c = true) ↔ trimStart cs = [] := by
    refine ⟨fun hall => ?_, fun hnil => by simp [hnil]⟩
    cases hcons : trimStart cs with
    | nil => rfl
    | cons c rest =>
      have hhead := List.head?_dropWhile_not isBlank cs
      rw [show cs.dropWhile isBlank = c :: rest from hcons] at hhead
      exact absurd (hall c (by simp [hcons])) (by simpa using hhead)
  rw [trim, trimEnd, List.reverse_eq_nil_iff, htrimmed]
  simp only [List.mem_reverse]
  rw [hstart, htrimmed]

/-- A row has tags if they are not all blank. -/
theorem Row.hasTags_eq_isTagged (r : Row) : r.hasTags = r.isTagged := by
  unfold hasTags isTagged
  cases r.tagString with
  | none => rfl
  | some s =>
    rw [Option.any_some, Option.getD_some, Bool.eq_iff_iff, Bool.not_eq_true', List.isEmpty_eq_false_iff,
      ne_eq, trim_eq_nil_iff, List.any_eq_true]
    simp

end Fixture

end Imageboard
