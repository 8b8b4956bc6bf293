import Imageboard.ConfigFile
import Imageboard.Proofs.Query.Binding
import Imageboard.Proofs.Text.Lowering

/-!
# Accepted categories

A list of categories is accepted exactly if no code and no name or further name occurs twice, whatever
the letter case; the short names are not looked at. What a configuration accepts is therefore in order of
distinct codes, with all names distinct and in lower case.
-/

namespace Imageboard

namespace Categories

variable {cs : List Category} {codes : List Int} {taken taken' keys : List String}

/-! ## The checks of a list -/

/-- Keys are taken exactly if none occurs twice and none was taken before. -/
theorem claimKeys_eq_ok_iff : claimKeys taken keys = .ok taken' ↔
    keys.Nodup ∧ taken.Disjoint keys ∧ keys.reverse ++ taken = taken' := by
  induction keys generalizing taken with
  | nil => simp [claimKeys]
  | cons key rest ih =>
    rw [claimKeys]
    by_cases hkey : key ∈ taken
    · simp [hkey]
    · rw [if_neg hkey, ih]
      simp only [List.nodup_cons, List.disjoint_cons_left, List.disjoint_cons_right, List.reverse_cons,
        List.append_assoc, List.cons_append, List.nil_append]
      tauto

/-- The checks are passed exactly if no code and no key occurs twice or has occurred before. -/
theorem checkDistinct_eq_ok_iff : checkDistinct codes taken cs = .ok () ↔
    ((cs.map (·.code)).Nodup ∧ codes.Disjoint (cs.map (·.code))) ∧
      (cs.flatMap Category.keys).Nodup ∧ taken.Disjoint (cs.flatMap Category.keys) := by
  induction cs generalizing codes taken with
  | nil => simp [checkDistinct]
  | cons c rest ih =>
    rw [checkDistinct]
    by_cases hcode : c.code ∈ codes
    · simp [hcode]
    · rw [if_neg hcode]
      rw [List.map_cons, List.nodup_cons, List.disjoint_cons_right, List.flatMap_cons,
        List.nodup_append', List.disjoint_append_right]
      cases hkeys : claimKeys taken c.keys with
      | error e =>
        have hclash : ¬ (c.keys.Nodup ∧ taken.Disjoint c.keys) := by
          rintro ⟨hnodup, hdisjoint⟩
          rw [claimKeys_eq_ok_iff.2 ⟨hnodup, hdisjoint, rfl⟩] at hkeys
          cases hkeys
        simp only [reduceCtorEq, false_iff]
        tauto
      | ok taken' =>
        obtain ⟨hnodup, hdisjoint, rfl⟩ := claimKeys_eq_ok_iff.1 hkeys
        dsimp only
        rw [ih, List.disjoint_cons_left, List.disjoint_append_left, List.disjoint_reverse_left]
        tauto

/-- A list is accepted exactly if no code and no key occurs twice, and is then put in order of codes. -/
theorem ofList?_eq_ok_iff {categories : Categories} : ofList? cs = .ok categories ↔
    (cs.map (·.code)).Nodup ∧ (cs.flatMap Category.keys).Nodup ∧
      cs.mergeSort (fun c d => c.code ≤ d.code) = categories.toList := by
  have hperm := List.mergeSort_perm cs fun c d => c.code ≤ d.code
  have hchecked : checkDistinct [] [] (cs.mergeSort fun c d => c.code ≤ d.code) = .ok () ↔ _ :=
    checkDistinct_eq_ok_iff
  simp only [List.disjoint_nil_left, and_true, (hperm.map _).nodup_iff,
    (hperm.flatMap_right _).nodup_iff] at hchecked
  rw [ofList?, ← and_assoc, ← hchecked]
  cases checkDistinct [] [] (cs.mergeSort fun c d => c.code ≤ d.code) with
  | error e => simp
  | ok u =>
    obtain ⟨list⟩ := categories
    simp

/-- A list that is accepted is only put in another order. -/
theorem perm_of_ofList? {categories : Categories} (h : ofList? cs = .ok categories) :
    categories.toList.Perm cs :=
  (ofList?_eq_ok_iff.1 h).2.2 ▸ List.mergeSort_perm _ _

/-- A list that is accepted is put in order of distinct codes. -/
theorem ordered_of_ofList? {categories : Categories} (h : ofList? cs = .ok categories) :
    categories.toList.Pairwise fun c d => c.code < d.code := by
  obtain ⟨hcodes, -, hsorted⟩ := ofList?_eq_ok_iff.1 h
  have hordered : categories.toList.Pairwise fun c d => c.code ≤ d.code := by
    rw [← hsorted]
    refine (List.pairwise_mergeSort (fun c d e hcd hde => ?_) (fun c d => ?_) cs).imp of_decide_eq_true
    · exact decide_eq_true (Int.le_trans (of_decide_eq_true hcd) (of_decide_eq_true hde))
    · simpa using Int.le_total c.code d.code
  have hdistinct : categories.toList.Pairwise fun c d => c.code ≠ d.code :=
    List.pairwise_map.1 (((perm_of_ofList? h).map _).nodup_iff.2 hcodes)
  exact (hordered.and hdistinct).imp Int.lt_iff_le_and_ne.2

/-! ## What a configuration accepts -/

/-- What the categories of a configuration are like. -/
structure Accepted (categories : Categories) : Prop where
  /-- They are in order of distinct codes. -/
  ordered : categories.toList.Pairwise fun c d => c.code < d.code
  /-- No key occurs twice, in one category or in two. -/
  distinct : (categories.toList.flatMap Category.keys).Nodup
  /-- Names are in lower case. -/
  keys_eq : ∀ c ∈ categories.toList, c.keys = c.name :: c.aliases
  /-- Short names are in lower case. -/
  shortName_eq : ∀ c ∈ categories.toList, Text.lowerString c.shortName = c.shortName

/-- The standard categories can be accepted. -/
theorem accepted_standard : Accepted standard := by
  constructor <;> decide +kernel

end Categories

namespace Config

open Categories

variable {config config' : Config} {fields : List (String × Json)}

/-- The names of a category that is read are in lower case. -/
theorem lowered_of_categoryOfJson {entry : Json} {c : Category} (h : categoryOfJson entry = .ok c) :
    c.keys = c.name :: c.aliases ∧ Text.lowerString c.shortName = c.shortName := by
  have hlowered (code : Int) (name short : String) (aliases : List String) :
      (Category.mk code (Text.lowerString name) (Text.lowerString short)
        (aliases.map Text.lowerString)).keys = Text.lowerString name :: aliases.map Text.lowerString := by
    simp [Category.keys, Function.comp_def, Text.lowerString_lowerString]
  unfold categoryOfJson at h
  -- Each step that fails ends the reading; where none does, all texts are lowered.
  repeat' split at h
  all_goals first
    | contradiction
    | obtain rfl := Except.ok.inj h
      exact ⟨hlowered _ _ _ _, Text.lowerString_lowerString _⟩

/-- Categories that are read can be accepted. -/
theorem accepted_of_categoriesOfJson {value : Json} {categories : Categories}
    (h : categoriesOfJson value = .ok categories) : categories.Accepted := by
  unfold categoriesOfJson at h
  split at h
  next items =>
    split at h
    next => contradiction
    next cs hcs =>
      have hlowered (c : Category) (hc : c ∈ categories.toList) :
          c.keys = c.name :: c.aliases ∧ Text.lowerString c.shortName = c.shortName := by
        obtain ⟨entry, -, hentry⟩ := Query.exists_of_mem_mapM hcs ((perm_of_ofList? h).mem_iff.1 hc)
        exact lowered_of_categoryOfJson hentry
      exact ⟨ordered_of_ofList? h,
        ((perm_of_ofList? h).flatMap_right _).nodup_iff.2 (ofList?_eq_ok_iff.1 h).2.1,
        fun c hc => (hlowered c hc).1, fun c hc => (hlowered c hc).2⟩
  next => contradiction

/-- A setting leaves the categories as they are or replaces them by others that can be accepted. -/
theorem accepted_of_applySetting {key : String} {value : Json}
    (h : applySetting config key value = .ok config') (hconfig : config.categories.Accepted) :
    config'.categories.Accepted := by
  unfold applySetting at h
  split at h
  -- Apart from numbers there are a switch, a list of patterns, the categories, and unknown keys.
  case h_7 =>
    split at h
    · obtain rfl := Except.ok.inj h
      exact hconfig
    · contradiction
  case h_8 =>
    split at h
    · obtain rfl := Except.ok.inj h
      exact hconfig
    · contradiction
  case h_9 =>
    obtain ⟨categories, hcategories, rfl⟩ := exists_of_map_eq_ok h
    exact accepted_of_categoriesOfJson hcategories
  case h_10 => contradiction
  all_goals
    obtain ⟨n, -, rfl⟩ := exists_of_map_eq_ok h
    exact hconfig

/-- Settings that are taken over leave categories that can be accepted. -/
theorem accepted_of_applySettings (h : applySettings config fields = .ok config')
    (hconfig : config.categories.Accepted) : config'.categories.Accepted := by
  induction fields generalizing config with
  | nil =>
    obtain rfl := Except.ok.inj h
    exact hconfig
  | cons field rest ih =>
    rw [applySettings] at h
    split at h
    · contradiction
    next next hnext => exact ih h (accepted_of_applySetting hnext hconfig)

/-- Checking settings changes nothing in them. -/
theorem eq_of_validate (h : config.validate = .ok config') : config = config' := by
  unfold validate at h
  dsimp only at h
  repeat' split at h
  all_goals first
    | contradiction
    | exact Except.ok.inj h

/-- The categories of a configuration are accepted ones. -/
theorem accepted_of_ofFields (h : ofFields fields = .ok config) : config.categories.Accepted := by
  unfold ofFields at h
  split at h
  · contradiction
  next read hread =>
    obtain rfl := eq_of_validate h
    exact accepted_of_applySettings hread accepted_standard

/-- A list of categories that is read, accepted and in order makes a configuration by itself. -/
theorem ofFields_categories {items : List Json} {cs : List Category}
    (hread : items.mapM categoryOfJson = .ok cs) (hcodes : cs.Pairwise fun c d => c.code < d.code)
    (hkeys : (cs.flatMap Category.keys).Nodup) (hnil : cs ≠ []) :
    ofFields [("categories", .list items)] = .ok (standardWith ⟨cs⟩) := by
  have hsorted : cs.mergeSort (fun c d => c.code ≤ d.code) = cs :=
    List.mergeSort_of_pairwise (hcodes.imp fun h => decide_eq_true (Int.le_of_lt h))
  have haccepted : ofList? cs = .ok ⟨cs⟩ :=
    ofList?_eq_ok_iff.2 ⟨List.pairwise_map.2 (hcodes.imp Int.ne_of_lt), hkeys, hsorted⟩
  have hcategories : categoriesOfJson (.list items) = .ok ⟨cs⟩ := by
    rw [categoriesOfJson, hread]
    exact haccepted
  have hvalid : (standardWith ⟨cs⟩).validate = .ok (standardWith ⟨cs⟩) := by
    have hempty : cs.isEmpty = false := List.isEmpty_eq_false_iff.2 hnil
    simp [validate, standardWith, hempty]
  have happlied : applySettings standard [("categories", .list items)] = .ok (standardWith ⟨cs⟩) := by
    rw [applySettings, applySetting, hcategories]
    rfl
  rw [ofFields, happlied]
  exact hvalid

end Config

end Imageboard
