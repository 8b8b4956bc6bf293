import Imageboard.Proofs.Tagging.Counts
import Imageboard.Store.Relationships

/-!
# Changes of relationships

What changes of aliases and implications do to the records, if the store accepts them: a new record
gets an id that no other has, and a changed table has the changed records in the places of the old
ones. What matters of them is mostly which pairs of names are in force.
-/

namespace Imageboard

namespace Contents

variable {c d : Contents} {kind : RelationshipKind}

/-- Changes the relationships of a kind that satisfy a condition. -/
def mapRelationships (c : Contents) (kind : RelationshipKind) (p : Relationship → Bool)
    (f : Relationship → Relationship) : Contents :=
  c.withRelationships kind ((c.relationships kind).map fun r => if p r then f r else r)

/-- The antecedents and consequents of the relationships of a kind that are in force. -/
def inForce (c : Contents) (kind : RelationshipKind) : List (String × String) :=
  ((c.relationships kind).filter (·.status = .active)).map fun r => (r.antecedent, r.consequent)

/-- The record with the largest id is one of the records. -/
theorem mem_of_latest? {rs : List Relationship} {r : Relationship} (h : latest? rs = some r) :
    r ∈ rs := by
  induction rs generalizing r with
  | nil => cases h
  | cons first rest ih =>
    rw [latest?] at h
    split at h
    next s hs =>
      split at h
      · obtain rfl := Option.some.inj h
        exact List.mem_cons_of_mem _ (ih hs)
      · obtain rfl := Option.some.inj h
        exact List.mem_cons_self
    next => exact Option.some.inj h ▸ List.mem_cons_self

/-- There is no record with the largest id exactly if there is no record. -/
theorem latest?_eq_none_iff {rs : List Relationship} : latest? rs = none ↔ rs = [] := by
  cases rs with
  | nil => simp [latest?]
  | cons first rest =>
    rw [latest?]
    split
    · split <;> simp
    · simp

/-- The relationships that are listed as in force are those with that status. -/
theorem mem_activeRelationships {r : Relationship} :
    r ∈ c.activeRelationships kind ↔ r ∈ c.relationships kind ∧ r.status = .active := by
  simp [activeRelationships]

/-- A search by names and status finds a record with these. -/
theorem mem_of_findRelationship? {antecedent consequent status : String} {r : Relationship}
    (h : c.findRelationship? kind antecedent consequent status = some r) :
    r ∈ c.relationships kind ∧ r.antecedent = antecedent ∧ r.consequent = consequent ∧
      r.status.name = status := by
  simpa using mem_of_latest? h

/-- Records that pass their checks replace the old ones in place, and none is to itself. -/
theorem updateRelationships_eq_ok {p : Relationship → Bool} {f : Relationship → Relationship}
    {done rs edited : List Relationship} (h : updateRelationships kind p f done rs = .ok edited) :
    edited = done ++ rs.map fun r => if p r then f r else r := by
  induction rs generalizing done with
  | nil =>
    obtain rfl := Except.ok.inj h
    simp
  | cons r rest ih =>
    rw [updateRelationships] at h
    split at h
    next hp =>
      split at h
      · contradiction
      · rw [ih h, List.map_cons, if_pos hp, List.append_assoc, List.singleton_append]
    next hp => rw [ih h, List.map_cons, if_neg hp, List.append_assoc, List.singleton_append]

/-- A change of relationships that the store accepts. -/
theorem editRelationships_eq_ok {p : Relationship → Bool} {f : Relationship → Relationship} {n : Int}
    (h : c.editRelationships kind p f = .ok (n, d)) : d = c.mapRelationships kind p f := by
  obtain ⟨edited, hrs, heq⟩ := exists_of_map_eq_ok h
  obtain ⟨-, rfl⟩ := Prod.mk.inj heq
  rw [updateRelationships_eq_ok hrs]
  rfl

/-- A new relationship passed its check and stands behind the others with an id of its own. -/
theorem addRelationship_eq_ok {antecedent consequent status : String}
    {forumTopicId creatorId : Option Int} {stamp : Value} {r : Relationship}
    (h : c.addRelationship kind antecedent consequent status forumTopicId creatorId stamp =
      .ok (r, d)) :
    d = c.withRelationships kind (c.relationships kind ++ [r]) ∧ r.antecedent = antecedent ∧
      r.consequent = consequent ∧ Status.named? status = some r.status ∧
      (∀ q ∈ c.relationships kind, q.id ≠ r.id) ∧
      checkRelationship kind (c.relationships kind) r = .ok () := by
  rw [addRelationship] at h
  split at h
  · contradiction
  next st hstatus =>
    obtain ⟨⟨⟩, hcheck, heq⟩ := exists_of_map_eq_ok h
    obtain ⟨rfl, rfl⟩ := Prod.mk.inj heq
    refine ⟨rfl, rfl, rfl, hstatus, fun q hq hid => ?_, hcheck⟩
    exact nextId_not_mem (List.mem_map.2 ⟨q, hq, hid⟩)

/-- Changing no record changes nothing. -/
theorem mapRelationships_of_not {p : Relationship → Bool} {f : Relationship → Relationship}
    (h : (c.relationships kind).any p = false) : c.mapRelationships kind p f = c := by
  have hsame : ((c.relationships kind).map fun r => if p r then f r else r) =
      c.relationships kind := by
    refine (List.map_congr_left fun r hr => ?_).trans (List.map_id _)
    have hnot : ¬ p r = true := List.any_eq_false.1 h r hr
    rw [if_neg hnot]
    rfl
  rw [mapRelationships, hsame]
  cases kind <;> rfl

/-! ## Pairs in force -/

/-- A pair is in force if a record of it is. -/
theorem mem_inForce {p : String × String} :
    p ∈ c.inForce kind ↔ ∃ r ∈ c.relationships kind, r.status = .active ∧
      (r.antecedent, r.consequent) = p := by
  simp [inForce, and_assoc]

/-- The relationships that are listed as in force have the pairs in force. -/
theorem mem_map_activeRelationships {p : String × String} :
    p ∈ (c.activeRelationships kind).map (fun r => (r.antecedent, r.consequent)) ↔
      p ∈ c.inForce kind := by
  simp only [List.mem_map, mem_activeRelationships, mem_inForce, and_assoc]

/-- The relationships of a kind are those that were put in place. -/
theorem relationships_withRelationships (c : Contents) (kind : RelationshipKind)
    (rs : List Relationship) : (c.withRelationships kind rs).relationships kind = rs := by
  cases kind <;> rfl

/-- A record that is not in force adds no pair. -/
theorem inForce_append_of_ne {r : Relationship} (h : r.status ≠ .active) :
    (c.withRelationships kind (c.relationships kind ++ [r])).inForce kind = c.inForce kind := by
  simp [inForce, relationships_withRelationships, h]

/-- A record stands behind the others of its kind, with an id of its own, and is not in force. -/
structure Trails (kind : RelationshipKind) (r : Relationship) (c : Contents) : Prop where
  status : r.status ≠ .active
  last : ∃ old, c.relationships kind = old ++ [r] ∧ ∀ q ∈ old, q.id ≠ r.id

/-- A record that was just added stands behind the others. -/
theorem trails_append {r : Relationship} (hstatus : r.status ≠ .active)
    (hfresh : ∀ q ∈ c.relationships kind, q.id ≠ r.id) :
    (c.withRelationships kind (c.relationships kind ++ [r])).Trails kind r :=
  ⟨hstatus, _, relationships_withRelationships c kind _, hfresh⟩

end Contents

/-- A change of records that gives them a status and leaves ids and names alone. -/
structure Relationship.Settles (status : Status) (f : Relationship → Relationship) : Prop where
  id : ∀ q, (f q).id = q.id
  antecedent : ∀ q, (f q).antecedent = q.antecedent
  consequent : ∀ q, (f q).consequent = q.consequent
  status : ∀ q, (f q).status = status

/-- A change of records that gives them names and leaves ids and statuses alone. -/
structure Relationship.Renames (antecedent consequent : String) (f : Relationship → Relationship) :
    Prop where
  id : ∀ q, (f q).id = q.id
  antecedent : ∀ q, (f q).antecedent = antecedent
  consequent : ∀ q, (f q).consequent = consequent
  status : ∀ q, (f q).status = q.status

namespace Contents

variable {c : Contents} {kind : RelationshipKind} {f : Relationship → Relationship}

/-- A record of a changed table is a changed record or one that was passed over. -/
theorem mem_relationships_mapRelationships {p : Relationship → Bool} {q : Relationship} :
    q ∈ (c.mapRelationships kind p f).relationships kind ↔
      ∃ r ∈ c.relationships kind, (if p r then f r else r) = q := by
  rw [mapRelationships, relationships_withRelationships, List.mem_map]

/-- Changes that give no other ids leave the ids as they are. -/
theorem ids_mapRelationships (hid : ∀ r, (f r).id = r.id) {p : Relationship → Bool} :
    ((c.mapRelationships kind p f).relationships kind).map (·.id) =
      (c.relationships kind).map (·.id) := by
  rw [mapRelationships, relationships_withRelationships, List.map_map]
  refine List.map_congr_left fun r _ => ?_
  dsimp only [Function.comp]
  split
  · exact hid r
  · rfl

/-- Rejecting records takes pairs out of force and puts none into it. -/
theorem inForce_reject_sublist (hf : Relationship.Settles .rejected f) (p : Relationship → Bool) :
    ((c.mapRelationships kind p f).inForce kind).Sublist (c.inForce kind) := by
  rw [inForce, inForce, mapRelationships, relationships_withRelationships]
  induction c.relationships kind with
  | nil => exact List.Sublist.refl _
  | cons r rest ih =>
    rw [List.map_cons]
    by_cases hp : p r = true
    · rw [if_pos hp, List.filter_cons_of_neg (by simp [hf.status])]
      exact ih.trans (((List.sublist_cons_self r rest).filter _).map _)
    · rw [if_neg hp, List.filter_cons, List.filter_cons]
      split
      · exact ih.cons_cons _
      · exact ih

/-- Putting the last of the records into force adds its pair behind the others. -/
theorem Trails.inForce_activate {r : Relationship} (h : c.Trails kind r)
    (hf : Relationship.Settles .active f) :
    (c.mapRelationships kind (·.id = r.id) f).inForce kind =
      c.inForce kind ++ [(r.antecedent, r.consequent)] := by
  obtain ⟨old, hlast, hfresh⟩ := h.last
  have hold : (old.map fun q => if decide (q.id = r.id) then f q else q) = old := by
    refine (List.map_congr_left fun q hq => ?_).trans (List.map_id _)
    rw [if_neg (by simpa using hfresh q hq)]
    rfl
  rw [inForce, inForce, mapRelationships, relationships_withRelationships, hlast, List.map_append,
    hold]
  simp [hf.status, hf.antecedent, hf.consequent, h.status]

end Contents

end Imageboard
