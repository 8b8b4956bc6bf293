import Imageboard.Proofs.Relationship.Lawful
import Imageboard.Proofs.Relationship.Moving

/-!
# No implication is lost when implications are moved

Some implications are rejected when they are moved: those that would be to themselves, and those
that are there already under their renamed names. So each pair that was in force has its renamed
names in force in the end, unless these are one name. This needs the rules of the store, since the
records to be moved are told apart by their ids.
-/

namespace Imageboard.Store

open Work

variable {oldName newName : String}

/-- Some different records in force are still to be moved, and whatever has been moved, rejected or
left alone, each pair from before has its renamed names in force unless these are one name. -/
structure Carrying (oldName newName : String) (before : List (String × String))
    (rest : List Relationship) (c : Contents) : Prop where
  ids : ((c.relationships .implication).map (·.id)).Nodup
  distinct : (rest.map (·.id)).Nodup
  present : ∀ r ∈ rest, r ∈ c.relationships .implication ∧ r.status = .active
  complete : ∀ q ∈ before, renamed oldName newName q.1 ≠ renamed oldName newName q.2 →
    ∃ p ∈ c.inForce .implication, renamedPair oldName newName p = renamedPair oldName newName q

namespace Carrying

variable {before : List (String × String)} {rest : List Relationship} {c : Contents}
  {r : Relationship} {f : Relationship → Relationship}

/-- An implication on other names is passed over. -/
theorem skip (h : Carrying oldName newName before (r :: rest) c) :
    Carrying oldName newName before rest c where
  ids := h.ids
  distinct := (List.nodup_cons.1 h.distinct).2
  present q hq := h.present q (List.mem_cons_of_mem _ hq)
  complete := h.complete

/-- Other records are not those to be changed. -/
theorem ne_of_mem (h : Carrying oldName newName before (r :: rest) c) {q : Relationship}
    (hq : q ∈ rest) : q.id ≠ r.id :=
  fun hid => (List.nodup_cons.1 h.distinct).1 (List.mem_map.2 ⟨q, hq, hid⟩)

/-- A change of one record leaves the others to be moved as they are. -/
theorem edit (h : Carrying oldName newName before (r :: rest) c) (hid : ∀ q, (f q).id = q.id)
    (hcomplete : ∀ q ∈ before, renamed oldName newName q.1 ≠ renamed oldName newName q.2 →
      renamedPair oldName newName (r.antecedent, r.consequent) = renamedPair oldName newName q →
      ∃ p ∈ (c.mapRelationships .implication (·.id = r.id) f).inForce .implication,
        renamedPair oldName newName p = renamedPair oldName newName q) :
    Carrying oldName newName before rest (c.mapRelationships .implication (·.id = r.id) f) where
  ids := by
    rw [Contents.ids_mapRelationships hid]
    exact h.ids
  distinct := h.skip.distinct
  present q hq := by
    obtain ⟨hmem, hactive⟩ := h.skip.present q hq
    refine ⟨Contents.mem_relationships_mapRelationships.2 ⟨q, hmem, if_neg ?_⟩, hactive⟩
    simpa using h.ne_of_mem hq
  complete q hq hne := by
    obtain ⟨p, hp, heq⟩ := h.complete q hq hne
    obtain ⟨t, ht, hactive, rfl⟩ := Contents.mem_inForce.1 hp
    by_cases htid : t.id = r.id
    · obtain rfl := List.inj_on_of_nodup_map h.ids ht (h.present r List.mem_cons_self).1 htid
      exact hcomplete q hq hne heq
    · refine ⟨_, Contents.mem_inForce.2 ⟨t, ?_, hactive, rfl⟩, heq⟩
      exact Contents.mem_relationships_mapRelationships.2 ⟨t, ht, if_neg (by simpa using htid)⟩

/-- A rejected implication was to itself or is there with its renamed names. -/
theorem reject (hne : oldName ≠ newName) (h : Carrying oldName newName before (r :: rest) c)
    (hf : Relationship.Settles .rejected f)
    (hon : ¬ (r.antecedent ≠ oldName ∧ r.consequent ≠ oldName))
    (htwin : renamed oldName newName r.antecedent = renamed oldName newName r.consequent ∨
      (renamed oldName newName r.antecedent, renamed oldName newName r.consequent) ∈
        c.inForce .implication) :
    Carrying oldName newName before rest (c.mapRelationships .implication (·.id = r.id) f) := by
  refine h.edit hf.id fun q hq hq' heq => ?_
  obtain ⟨hfirst, hsecond⟩ := Prod.mk.inj heq
  rcases htwin with hself | htwin
  · exact absurd (hfirst.symm.trans (hself.trans hsecond)) hq'
  · obtain ⟨t, ht, hactive, hpair⟩ := Contents.mem_inForce.1 htwin
    obtain ⟨hantecedent, hconsequent⟩ := Prod.mk.inj hpair
    have hid : t.id ≠ r.id := by
      intro hid
      obtain rfl := List.inj_on_of_nodup_map h.ids ht (h.present r List.mem_cons_self).1 hid
      exact hon ⟨hantecedent ▸ renamed_ne hne _, hconsequent ▸ renamed_ne hne _⟩
    refine ⟨renamedPair oldName newName (r.antecedent, r.consequent),
      Contents.mem_inForce.2 ⟨t, ?_, hactive, hpair⟩, ?_⟩
    · exact Contents.mem_relationships_mapRelationships.2 ⟨t, ht, if_neg (by simpa using hid)⟩
    · rw [renamedPair_renamedPair hne, heq]

/-- A renamed implication is there with its renamed names. -/
theorem move (hne : oldName ≠ newName) (h : Carrying oldName newName before (r :: rest) c)
    (hf : Relationship.Renames (renamed oldName newName r.antecedent)
      (renamed oldName newName r.consequent) f) :
    Carrying oldName newName before rest (c.mapRelationships .implication (·.id = r.id) f) := by
  obtain ⟨hmem, hactive⟩ := h.present r List.mem_cons_self
  refine h.edit hf.id fun q hq _ heq => ?_
  refine ⟨renamedPair oldName newName (r.antecedent, r.consequent),
    Contents.mem_inForce.2 ⟨f r, ?_, (hf.status r).trans hactive, ?_⟩, ?_⟩
  · exact Contents.mem_relationships_mapRelationships.2 ⟨r, hmem, if_pos (by simp)⟩
  · rw [hf.antecedent, hf.consequent, renamedPair]
  · rw [renamedPair_renamedPair hne, heq]

end Carrying

/-- The implications in force are different records when their moving begins. -/
theorem carrying_activeRelationships {c : Contents}
    (hids : ((c.relationships .implication).map (·.id)).Nodup) :
    Carrying oldName newName (c.inForce .implication) (c.activeRelationships .implication) c where
  ids := hids
  distinct := by
    have hperm := List.mergeSort_perm ((c.relationships .implication).filter (·.status = .active))
      fun r s : Relationship => r.id ≤ s.id
    exact (hperm.map _).nodup_iff.2 (hids.sublist (List.filter_sublist.map _))
  present _ hr := Contents.mem_activeRelationships.1 hr
  complete q hq _ := ⟨q, hq, rfl⟩

/-- Moving implications keeps each pair under its renamed names, unless these are one name. -/
theorem leads_moveImplications_complete (hne : oldName ≠ newName)
    {before : List (String × String)} :
    Leads (fun c => ((c.relationships .implication).map (·.id)).Nodup ∧
        c.inForce .implication = before)
      (moveImplications oldName newName) fun _ c => ∀ q ∈ before,
        renamed oldName newName q.1 ≠ renamed oldName newName q.2 →
        ∃ p ∈ c.inForce .implication,
          renamedPair oldName newName p = renamedPair oldName newName q := by
  refine (leads_read _ _ _).bind fun rs => Leads.imp
    (leads_moveEach (I := Carrying oldName newName before) (fun _ _ _ h _ => h.skip)
      (fun _ _ _ _ h hf hon htwin => h.reject hne hf hon htwin)
      (fun _ _ _ _ h hf _ => h.move hne hf) rs)
    ?_ fun _ c h => h.complete
  rintro c ⟨⟨hids, rfl⟩, rfl⟩
  exact carrying_activeRelationships hids

/-- Where records obey the rules of the store, exactly the renamed pairs of different names are in
force when implications have been moved. -/
theorem leads_moveImplications_iff (hne : oldName ≠ newName) {before : List (String × String)} :
    Leads (fun c => Contents.Lawful .implication (c.relationships .implication) ∧
        c.inForce .implication = before)
      (moveImplications oldName newName) fun _ c => ∀ p, p ∈ c.inForce .implication ↔
        p.1 ≠ p.2 ∧ ∃ q ∈ before, renamedPair oldName newName q = p := by
  rintro s n t others ⟨hlawful, hbefore⟩ hrun p
  have hsound := leads_moveImplications hne s n t hbefore hrun
  have hcomplete := leads_moveImplications_complete hne s n t ⟨hlawful.ids, hbefore⟩ hrun
  have hafter : Contents.Lawful .implication (t.contents.relationships .implication) :=
    (keeps_moveImplications (Contents.relationshipKeeps_lawful _ _) _ _).leads s n t hlawful hrun
  constructor
  · intro hp
    obtain ⟨-, -, hfrom⟩ := hsound p hp
    obtain ⟨r, hr, -, rfl⟩ := Contents.mem_inForce.1 hp
    exact ⟨hafter.proper r hr, hfrom⟩
  · rintro ⟨hp, q, hq, rfl⟩
    obtain ⟨p, hmem, heq⟩ := hcomplete q hq hp
    obtain ⟨hfirst, hsecond, -⟩ := hsound p hmem
    have hsame : renamedPair oldName newName p = p :=
      Prod.ext (renamed_of_ne hfirst) (renamed_of_ne hsecond)
    rwa [← heq, hsame]

end Imageboard.Store
