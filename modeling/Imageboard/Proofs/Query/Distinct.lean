import Imageboard.Query.Term
import Mathlib.Data.List.Nodup

/-!
# The first of each

Of the items with one key the first is kept. What is kept is in the list, each item has a kept one with
its key, and the keys that are kept depend on the keys only. Where an item is its own key, what is kept
are the items of the list, each once.
-/

namespace Imageboard.Query

section FirstOfEach

variable {α β : Type} [BEq β] {key : α → β}

/-- What is kept is in the list, in its order. -/
theorem firstOfEach_sublist (seen : List β) (xs : List α) :
    (firstOfEach key seen xs).Sublist xs := by
  induction xs generalizing seen with
  | nil => exact List.Sublist.refl _
  | cons x rest ih =>
    rw [firstOfEach]
    split
    · exact (ih seen).trans (List.sublist_cons_self x rest)
    · exact (ih (key x :: seen)).cons_cons x

/-- What is kept of items at the end comes after what is kept of the others. -/
theorem exists_firstOfEach_append (seen : List β) (xs ys : List α) :
    ∃ zs, zs.Sublist ys ∧ firstOfEach key seen (xs ++ ys) = firstOfEach key seen xs ++ zs := by
  induction xs generalizing seen with
  | nil => exact ⟨_, firstOfEach_sublist seen ys, rfl⟩
  | cons x rest ih =>
    rw [List.cons_append, firstOfEach, firstOfEach]
    split
    · exact ih seen
    · obtain ⟨zs, hzs, heq⟩ := ih (key x :: seen)
      exact ⟨zs, hzs, by rw [heq, List.cons_append]⟩

/-- Each item whose key was not seen before has a kept one with its key. -/
theorem exists_mem_firstOfEach [LawfulBEq β] {seen : List β} {xs : List α} {x : α} (hx : x ∈ xs)
    (hnew : key x ∉ seen) : ∃ y ∈ firstOfEach key seen xs, key y = key x := by
  induction xs generalizing seen with
  | nil => simp at hx
  | cons first rest ih =>
    rw [firstOfEach]
    by_cases hfirst : key first = key x
    · rw [if_neg (by simpa [hfirst] using hnew)]
      exact ⟨first, List.mem_cons_self, hfirst⟩
    · have hrest : x ∈ rest := by
        rcases List.mem_cons.1 hx with rfl | hrest
        · exact absurd rfl hfirst
        · exact hrest
      split
      · exact ih hrest hnew
      · have hnew' : key x ∉ key first :: seen := by
          simp [hnew, Ne.symm hfirst]
        obtain ⟨y, hy, heq⟩ := ih hrest hnew'
        exact ⟨y, List.mem_cons_of_mem _ hy, heq⟩

/-- The keys of what is kept depend on the keys only. -/
theorem map_firstOfEach_congr {seen : List β} {xs ys : List α} (h : xs.map key = ys.map key) :
    (firstOfEach key seen xs).map key = (firstOfEach key seen ys).map key := by
  induction xs generalizing seen ys with
  | nil => rw [List.map_eq_nil_iff.1 h.symm]
  | cons x rest ih =>
    cases ys with
    | nil => cases h
    | cons y ys =>
      obtain ⟨hkey, hrest⟩ := List.cons.inj h
      rw [firstOfEach, firstOfEach, hkey]
      split
      · exact ih hrest
      · rw [List.map_cons, List.map_cons, hkey, ih hrest]

end FirstOfEach

section Distinct

variable {α : Type} [BEq α] [LawfulBEq α]

/-- What is kept are the items that were not seen before. -/
theorem mem_firstOfEach_id {seen xs : List α} {x : α} :
    x ∈ firstOfEach id seen xs ↔ x ∈ xs ∧ x ∉ seen := by
  induction xs generalizing seen with
  | nil => simp [firstOfEach]
  | cons first rest ih =>
    rw [firstOfEach]
    split
    next hseen =>
      have hmem : first ∈ seen := by simpa using hseen
      rw [ih, List.mem_cons]
      exact ⟨fun h => ⟨Or.inr h.1, h.2⟩,
        fun h => ⟨h.1.resolve_left fun heq => h.2 (heq ▸ hmem), h.2⟩⟩
    next hseen =>
      have hnot : first ∉ seen := by simpa using hseen
      rw [List.mem_cons, List.mem_cons, ih, List.mem_cons, not_or]
      constructor
      · rintro (rfl | ⟨hx, -, hunseen⟩)
        · exact ⟨Or.inl rfl, hnot⟩
        · exact ⟨Or.inr hx, hunseen⟩
      · rintro ⟨rfl | hx, hunseen⟩
        · exact Or.inl rfl
        · by_cases heq : x = first
          · exact Or.inl heq
          · exact Or.inr ⟨hx, heq, hunseen⟩

/-- No item is kept twice. -/
theorem nodup_firstOfEach_id (seen xs : List α) : (firstOfEach id seen xs).Nodup := by
  induction xs generalizing seen with
  | nil => exact List.nodup_nil
  | cons first rest ih =>
    rw [firstOfEach]
    split
    · exact ih seen
    · refine List.nodup_cons.2 ⟨fun hmem => ?_, ih _⟩
      exact (mem_firstOfEach_id.1 hmem).2 List.mem_cons_self

/-- Dropping repetitions drops no item. -/
theorem mem_distinct {xs : List α} {x : α} : x ∈ distinct xs ↔ x ∈ xs := by
  rw [distinct, mem_firstOfEach_id]
  simp

/-- After repetitions are dropped there are none. -/
theorem nodup_distinct (xs : List α) : (distinct xs).Nodup :=
  nodup_firstOfEach_id [] xs

end Distinct

end Imageboard.Query
