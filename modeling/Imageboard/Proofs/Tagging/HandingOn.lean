import Imageboard.Proofs.Tagging.Retagging

/-!
# Tags that are made and get a category

Before posts are retagged, the tags of both names are made and the category of the one is handed on to
the other if only the one had a category. Neither changes a name on a post. The ids of new tags can be
taken by statements as long as there is room for them.
-/

namespace Imageboard.Contents

variable {c : Contents} {newName name : String} {old new : Tag} {general : Int} {stamp : Value}

/-! ## Categories that are handed on -/

/-- The contents in which a tag hands its category on to a general one. -/
def withHandedOn (c : Contents) (old new : Tag) (general : Int) (stamp : Value) : Contents :=
  if old.category ≠ general ∧ new.category = general then c.withCategory new.id old.category stamp
  else c

/-- Handing a category on changes the tags only. -/
theorem withHandedOn_eq : c.withHandedOn old new general stamp =
    { c with tags := (c.withHandedOn old new general stamp).tags } := by
  unfold withHandedOn
  split <;> rfl

/-- Handing a category on changes no post. -/
theorem posts_withHandedOn : (c.withHandedOn old new general stamp).posts = c.posts := by
  rw [withHandedOn_eq]

/-- Handing a category on keeps the rules. -/
theorem TagRules.withHandedOn (h : c.TagRules) : (c.withHandedOn old new general stamp).TagRules := by
  unfold Contents.withHandedOn
  split
  · exact h.mapTags' (by intro _; rfl) (by intro _; rfl)
  · exact h

/-- Handing a category on changes no name on a post. -/
theorem TagRules.tagNames_withHandedOn (h : c.TagRules) :
    (c.withHandedOn old new general stamp).tagNames = c.tagNames := by
  unfold Contents.withHandedOn
  split
  · exact h.tagNames_mapTags (by intro _; rfl) (by intro _; rfl)
  · rfl

/-- Handing a category on changes the tag that gets it only. -/
theorem TagRules.findTag?_withHandedOn (h : c.TagRules) (hnew : c.findTag? newName = some new)
    (hother : name ≠ newName) :
    (c.withHandedOn old new general stamp).findTag? name = c.findTag? name := by
  unfold Contents.withHandedOn
  split
  · obtain ⟨ht, rfl⟩ := h.findTag?_eq_some_iff.1 hnew
    exact h.findTag?_withCategory ht hother
  · rfl

/-- The tag to which a category is handed on is still there. -/
theorem exists_findTag?_withHandedOn (hnew : c.findTag? newName = some new) :
    ∃ t, (c.withHandedOn old new general stamp).findTag? newName = some t ∧ t.id = new.id ∧
      t.category = if old.category ≠ general ∧ new.category = general then old.category
        else new.category := by
  unfold Contents.withHandedOn
  split
  · refine ⟨{ new with category := old.category, updatedAt := stamp }, ?_, rfl, rfl⟩
    rw [withCategory, findTag?_mapTags (by intro _; rfl), hnew]
    simp
  · exact ⟨new, hnew, rfl, rfl⟩

/-! ## Ids that statements take -/

/-- An integer can be taken by a statement if it lies between the bounds. -/
theorem fits_integer_iff {n : Int} : (Value.integer n).fits ↔
    Value.integerBounds.1 ≤ n ∧ n < Value.integerBounds.2 := by
  simp [Value.fits]

/-- The id after that of a new record is one more. -/
theorem nextId_append_nextId (ids : List Int) : nextId (ids ++ [nextId ids]) = nextId ids + 1 := by
  cases ids with
  | nil => rfl
  | cons id rest =>
    simp only [List.cons_append, nextId, List.foldl_append, List.foldl_cons, List.foldl_nil]
    omega

/-- The ids and categories of tags can be taken by statements, and those of some more tags too. -/
structure TagsFit (room : Nat) (c : Contents) : Prop where
  ids : ∀ t ∈ c.tags, (Value.integer t.id).fits
  categories : ∀ t ∈ c.tags, (Value.integer t.category).fits
  next : nextId (c.tags.map (·.id)) + room ≤ Value.integerBounds.2

/-- The id of a new record is not too small. -/
theorem TagsFit.le_nextId {room : Nat} (h : c.TagsFit room) :
    Value.integerBounds.1 ≤ nextId (c.tags.map (·.id)) := by
  have hids := h.ids
  cases htags : c.tags with
  | nil => decide
  | cons t rest =>
    have hfits := fits_integer_iff.1 (hids t (htags ▸ List.mem_cons_self))
    have hlt : t.id < nextId ((t :: rest).map (·.id)) := lt_nextId (by simp)
    omega

/-- Where there is room for some tags there is room for fewer. -/
theorem TagsFit.mono {room less : Nat} (h : c.TagsFit room) (hle : less ≤ room) : c.TagsFit less :=
  ⟨h.ids, h.categories, by have hnext := h.next; omega⟩

/-- Making a tag leaves room for one tag less. -/
theorem TagsFit.withTag {room : Nat} (h : c.TagsFit (room + 1)) (hgeneral : (Value.integer general).fits) :
    (c.withTag name general stamp).TagsFit room := by
  have hnext := h.next
  unfold Contents.withTag
  split
  · exact ⟨h.ids, h.categories, by omega⟩
  · constructor
    · intro t ht
      rcases List.mem_append.1 ht with ht | ht
      · exact h.ids t ht
      · obtain rfl := List.mem_singleton.1 ht
        have hlower := h.le_nextId
        refine fits_integer_iff.2 ⟨hlower, ?_⟩
        change nextId (c.tags.map (·.id)) < Value.integerBounds.2
        omega
    · intro t ht
      rcases List.mem_append.1 ht with ht | ht
      · exact h.categories t ht
      · obtain rfl := List.mem_singleton.1 ht
        exact hgeneral
    · have hmore : (c.tags ++ [c.freshTag name general stamp]).map (·.id) =
          c.tags.map (·.id) ++ [nextId (c.tags.map (·.id))] := by
        simp [freshTag]
      rw [hmore, nextId_append_nextId]
      omega

end Imageboard.Contents
