import Imageboard.Proofs.Relationship.Changing

/-!
# Moving implications from one name to another

After the implications in force have been moved from one name to another, none of them is on the old
name, and each has the renamed names of one that was in force before.
-/

namespace Imageboard.Store

open Work

variable {oldName newName : String}

/-- A pair of names with one name put for another. -/
def renamedPair (oldName newName : String) (p : String × String) : String × String :=
  (renamed oldName newName p.1, renamed oldName newName p.2)

/-- Another name is not renamed. -/
theorem renamed_of_ne {name : String} (h : name ≠ oldName) : renamed oldName newName name = name :=
  if_neg h

/-- No renamed name is the old one. -/
theorem renamed_ne (hne : oldName ≠ newName) (name : String) :
    renamed oldName newName name ≠ oldName := by
  rw [renamed]
  split
  · exact hne.symm
  · assumption

/-- Renamed names are not renamed again. -/
theorem renamedPair_renamedPair (hne : oldName ≠ newName) (p : String × String) :
    renamedPair oldName newName (renamedPair oldName newName p) = renamedPair oldName newName p :=
  Prod.ext (renamed_of_ne (renamed_ne hne p.1)) (renamed_of_ne (renamed_ne hne p.2))

/-- Some implications are still to be moved, and those in force stand for pairs from before. -/
structure Moving (oldName newName : String) (before : List (String × String))
    (rest : List Relationship) (c : Contents) : Prop where
  listed : ∀ r ∈ rest, (r.antecedent, r.consequent) ∈ before
  sound : ∀ p ∈ c.inForce .implication,
    ∃ q ∈ before, renamedPair oldName newName q = renamedPair oldName newName p
  left : ∀ r ∈ c.relationships .implication, r.status = .active →
    r.antecedent = oldName ∨ r.consequent = oldName → r ∈ rest

namespace Moving

variable {before : List (String × String)} {rest : List Relationship} {c : Contents}
  {r : Relationship} {f : Relationship → Relationship}

/-- An implication on other names is passed over. -/
theorem skip (h : Moving oldName newName before (r :: rest) c)
    (hoff : r.antecedent ≠ oldName ∧ r.consequent ≠ oldName) :
    Moving oldName newName before rest c where
  listed q hq := h.listed q (List.mem_cons_of_mem _ hq)
  sound := h.sound
  left q hq hactive hon := by
    rcases List.mem_cons.1 (h.left q hq hactive hon) with rfl | hq
    · exact absurd hon (by simpa using hoff)
    · exact hq

/-- Rejecting an implication leaves fewer to be moved. -/
theorem reject (h : Moving oldName newName before (r :: rest) c)
    (hf : Relationship.Settles .rejected f) :
    Moving oldName newName before rest (c.mapRelationships .implication (·.id = r.id) f) where
  listed q hq := h.listed q (List.mem_cons_of_mem _ hq)
  sound p hp := h.sound p ((Contents.inForce_reject_sublist hf _).subset hp)
  left q hq hactive hon := by
    obtain ⟨t, ht, rfl⟩ := Contents.mem_relationships_mapRelationships.1 hq
    by_cases hid : t.id = r.id
    · rw [if_pos (by simpa using hid), hf.status] at hactive
      contradiction
    · rw [if_neg (by simpa using hid)] at hactive hon ⊢
      rcases List.mem_cons.1 (h.left t ht hactive hon) with rfl | hmem
      · exact absurd rfl hid
      · exact hmem

/-- Renaming an implication leaves fewer to be moved. -/
theorem move (hne : oldName ≠ newName) (h : Moving oldName newName before (r :: rest) c)
    (hf : Relationship.Renames (renamed oldName newName r.antecedent)
      (renamed oldName newName r.consequent) f) :
    Moving oldName newName before rest (c.mapRelationships .implication (·.id = r.id) f) where
  listed q hq := h.listed q (List.mem_cons_of_mem _ hq)
  sound p hp := by
    obtain ⟨q, hq, hactive, rfl⟩ := Contents.mem_inForce.1 hp
    obtain ⟨t, ht, rfl⟩ := Contents.mem_relationships_mapRelationships.1 hq
    by_cases hid : t.id = r.id
    · refine ⟨(r.antecedent, r.consequent), h.listed r List.mem_cons_self, ?_⟩
      rw [if_pos (by simpa using hid), hf.antecedent, hf.consequent]
      exact (renamedPair_renamedPair hne (r.antecedent, r.consequent)).symm
    · rw [if_neg (by simpa using hid)] at hactive ⊢
      exact h.sound _ (Contents.mem_inForce.2 ⟨t, ht, hactive, rfl⟩)
  left q hq hactive hon := by
    obtain ⟨t, ht, rfl⟩ := Contents.mem_relationships_mapRelationships.1 hq
    by_cases hid : t.id = r.id
    · rw [if_pos (by simpa using hid), hf.antecedent, hf.consequent] at hon
      rcases hon with hon | hon <;> exact absurd hon (renamed_ne hne _)
    · rw [if_neg (by simpa using hid)] at hactive hon ⊢
      rcases List.mem_cons.1 (h.left t ht hactive hon) with rfl | hmem
      · exact absurd rfl hid
      · exact hmem

/-- When none is to be moved any more, no pair in force is on the old name. -/
theorem done (h : Moving oldName newName before [] c) {p : String × String}
    (hp : p ∈ c.inForce .implication) :
    p.1 ≠ oldName ∧ p.2 ≠ oldName ∧ ∃ q ∈ before, renamedPair oldName newName q = p := by
  have hon : ¬ (p.1 = oldName ∨ p.2 = oldName) := by
    obtain ⟨r, hr, hactive, rfl⟩ := Contents.mem_inForce.1 hp
    exact fun hon => absurd (h.left r hr hactive hon) List.not_mem_nil
  obtain ⟨hfirst, hsecond⟩ := not_or.1 hon
  obtain ⟨q, hq, heq⟩ := h.sound p hp
  refine ⟨hfirst, hsecond, q, hq, heq.trans ?_⟩
  exact Prod.ext (renamed_of_ne hfirst) (renamed_of_ne hsecond)

end Moving

/-- The implications in force are all there when their moving begins. -/
theorem moving_activeRelationships (c : Contents) :
    Moving oldName newName (c.inForce .implication) (c.activeRelationships .implication) c where
  listed _ hr := Contents.mem_map_activeRelationships.1 (List.mem_map_of_mem hr)
  sound p hp := ⟨p, hp, rfl⟩
  left _ hr hactive _ := Contents.mem_activeRelationships.2 ⟨hr, hactive⟩

/-- Implications that stand in order of their ids are moved in their order. -/
theorem runOn_moveImplications_of_sorted {s : Store} (hread : Readable [.implications] [] s)
    (hsorted : (s.contents.relationships .implication).Pairwise fun q r => q.id ≤ r.id) :
    (moveImplications oldName newName).runOn s =
      (moveEach oldName newName
        ((s.contents.relationships .implication).filter (·.status = .active))).runOn s := by
  have hactive : s.contents.activeRelationships .implication =
      (s.contents.relationships .implication).filter (·.status = .active) :=
    List.mergeSort_of_pairwise (by simpa using hsorted.filter _)
  rw [← hactive]
  exact runOn_bind_of_ok (runOn_read_of_readable hread _)

/-- Moving implications leaves none on the old name, and only renamed pairs from before. -/
theorem leads_moveImplications (hne : oldName ≠ newName) {before : List (String × String)} :
    Leads (fun c => c.inForce .implication = before) (moveImplications oldName newName) fun _ c =>
      ∀ p ∈ c.inForce .implication,
        p.1 ≠ oldName ∧ p.2 ≠ oldName ∧ ∃ q ∈ before, renamedPair oldName newName q = p := by
  refine (leads_read _ _ _).bind fun rs => Leads.imp
    (leads_moveEach (I := Moving oldName newName before) (fun _ _ _ h hoff => h.skip hoff)
      (fun _ _ _ _ h hf _ _ => h.reject hf) (fun _ _ _ _ h hf _ => h.move hne hf) rs)
    ?_ fun _ c h p hp => h.done hp
  rintro c ⟨rfl, rfl⟩
  exact moving_activeRelationships c

end Imageboard.Store
