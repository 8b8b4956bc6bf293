import Imageboard.Proofs.Relationship.Keeping
import Mathlib.Data.List.Nodup
import Mathlib.Data.List.Pairwise

/-!
# The rules of the store for relationships

The store sees to it that no two relationships of a kind have the same id, that none is to itself,
and that no two in force exclude each other. Each record is checked against the others when it is
added or changed, so a table that obeys the rules does so after each change that is accepted.
-/

namespace Imageboard

namespace Contents

variable {kind : RelationshipKind} {rs done rest : List Relationship} {q r : Relationship}

/-- Relationships with different ids of which none is to itself and no two in force exclude each
other. -/
structure Lawful (kind : RelationshipKind) (rs : List Relationship) : Prop where
  ids : (rs.map (·.id)).Nodup
  proper : ∀ r ∈ rs, r.antecedent ≠ r.consequent
  keyed : rs.Pairwise fun q r => clashes kind q r = false

instance (kind : RelationshipKind) (rs : List Relationship) : Decidable (Lawful kind rs) :=
  decidable_of_iff ((rs.map (·.id)).Nodup ∧ (∀ r ∈ rs, r.antecedent ≠ r.consequent) ∧
      rs.Pairwise fun q r => clashes kind q r = false)
    ⟨fun h => ⟨h.1, h.2.1, h.2.2⟩, fun h => ⟨h.ids, h.proper, h.keyed⟩⟩

/-- Relationships exclude each other in both directions. -/
theorem clashes_comm (kind : RelationshipKind) (q r : Relationship) :
    clashes kind q r = clashes kind r q := by
  rw [Bool.eq_iff_iff]
  simp only [clashes, Bool.and_eq_true, Bool.or_eq_true, decide_eq_true_iff]
  constructor <;>
    exact fun h => ⟨⟨⟨⟨h.1.1.1.1.symm, h.1.1.2⟩, h.1.1.1.2⟩, h.1.2.symm⟩, h.2.imp_right Eq.symm⟩

instance (kind : RelationshipKind) : Std.Symm fun q r => clashes kind q r = false :=
  ⟨fun q r hclash => (clashes_comm kind r q).trans hclash⟩

/-- A record passes its check only if it is not to itself and no other record excludes it. -/
theorem checkRelationship_eq_ok (h : checkRelationship kind rs r = .ok ()) :
    r.antecedent ≠ r.consequent ∧ ∀ q ∈ rs, clashes kind r q = false := by
  rw [checkRelationship] at h
  split at h
  · contradiction
  next hne =>
    split at h
    · contradiction
    next hfree =>
      have hnone : rs.any (clashes kind r) = false := by simpa using hfree
      exact ⟨hne, fun q hq => by simpa using List.any_eq_false.1 hnone q hq⟩

namespace Lawful

/-- Two records with one id are the same. -/
theorem eq_of_id (h : Lawful kind rs) (hq : q ∈ rs) (hr : r ∈ rs) (hid : q.id = r.id) : q = r :=
  List.inj_on_of_nodup_map h.ids hq hr hid

/-- Two records in force between the same names are the same. -/
theorem eq_of_active (h : Lawful kind rs) (hq : q ∈ rs) (hr : r ∈ rs) (hqactive : q.status = .active)
    (hractive : r.status = .active) (hantecedent : q.antecedent = r.antecedent)
    (hconsequent : q.consequent = r.consequent) : q = r := by
  by_contra hne
  have hclash := h.keyed.forall hq hr hne
  have hid : q.id ≠ r.id := fun hid => hne (h.eq_of_id hq hr hid)
  simp [clashes, hid, hqactive, hractive, hantecedent, hconsequent] at hclash

/-- A record with an id of its own that passes its check can stand anywhere among the others. -/
theorem insert (h : Lawful kind (done ++ rest))
    (hcheck : checkRelationship kind (done ++ rest) q = .ok ())
    (hfresh : ∀ r ∈ done ++ rest, r.id ≠ q.id) : Lawful kind (done ++ q :: rest) := by
  obtain ⟨hproper, hfree⟩ := checkRelationship_eq_ok hcheck
  refine ⟨?_, fun r hr => ?_, ?_⟩
  · rw [List.map_append, List.map_cons, List.nodup_middle, List.nodup_cons, ← List.map_append]
    refine ⟨fun hmem => ?_, h.ids⟩
    obtain ⟨r, hr, hid⟩ := List.mem_map.1 hmem
    exact hfresh r hr hid
  · rcases List.mem_cons.1 (List.perm_middle.mem_iff.1 hr) with rfl | hr
    · exact hproper
    · exact h.proper r hr
  · rw [List.pairwise_middle fun {x y} hclash => clashes_comm kind x y ▸ hclash]
    exact List.pairwise_cons.2 ⟨hfree, h.keyed⟩

/-- A record that passes its check can take the place of one with its id. -/
theorem replace (h : Lawful kind (done ++ r :: rest))
    (hcheck : checkRelationship kind (done ++ rest) q = .ok ()) (hid : q.id = r.id) :
    Lawful kind (done ++ q :: rest) := by
  have hless : (done ++ rest).Sublist (done ++ r :: rest) :=
    List.Sublist.append_left (List.sublist_cons_self r rest) done
  have hids := h.ids
  rw [List.map_append, List.map_cons, List.nodup_middle, List.nodup_cons, ← List.map_append] at hids
  refine Lawful.insert ⟨hids.2, fun q hq => h.proper q (hless.subset hq), h.keyed.sublist hless⟩ hcheck
    fun q' hq' heq => hids.1 ?_
  rw [← hid, ← heq]
  exact List.mem_map_of_mem hq'

/-- Changes of records, each of which passes its check, leave the rules obeyed. -/
theorem updateRelationships {p : Relationship → Bool} {f : Relationship → Relationship}
    {edited : List Relationship} (h : Lawful kind (done ++ rs)) (hid : ∀ r, (f r).id = r.id)
    (hrun : Contents.updateRelationships kind p f done rs = .ok edited) : Lawful kind edited := by
  induction rs generalizing done with
  | nil =>
    obtain rfl := Except.ok.inj hrun
    rwa [List.append_nil] at h
  | cons r rest ih =>
    rw [Contents.updateRelationships] at hrun
    split at hrun
    · split at hrun
      · contradiction
      next hcheck =>
        refine ih ?_ hrun
        rw [List.append_assoc, List.singleton_append]
        exact h.replace hcheck (hid r)
    · refine ih ?_ hrun
      rwa [List.append_assoc, List.singleton_append]

end Lawful

/-- The rules stay obeyed whatever change the store accepts. -/
theorem relationshipKeeps_lawful (kind other : RelationshipKind) :
    RelationshipKeeps other fun c => Lawful kind (c.relationships kind) := by
  by_cases hother : other = kind
  · subst hother
    constructor
    · intro c d r _ _ _ _ _ _ hc hd
      obtain ⟨rfl, -, -, -, hfresh, hcheck⟩ := addRelationship_eq_ok hd
      rw [relationships_withRelationships]
      rw [← List.append_nil (c.relationships other)] at hc hcheck hfresh
      exact hc.insert hcheck hfresh
    · intro c d p f n hc hd hid
      obtain ⟨edited, hrs, heq⟩ := exists_of_map_eq_ok hd
      obtain ⟨-, rfl⟩ := Prod.mk.inj heq
      rw [relationships_withRelationships]
      have hstart : Lawful other ([] ++ c.relationships other) := hc
      exact hstart.updateRelationships hid hrs
  · refine relationshipKeeps_of_ignores fun c rs hc => ?_
    cases kind <;> cases other <;> first | exact hc | exact absurd rfl hother

/-- Rejecting a record in force takes exactly its pair out of force. -/
theorem mem_inForce_reject {c : Contents} {f : Relationship → Relationship} {p : String × String}
    (h : Lawful kind (c.relationships kind)) (hf : Relationship.Settles .rejected f)
    (hr : r ∈ c.relationships kind) (hactive : r.status = .active) :
    p ∈ (c.mapRelationships kind (·.id = r.id) f).inForce kind ↔
      p ∈ c.inForce kind ∧ p ≠ (r.antecedent, r.consequent) := by
  constructor
  · intro hp
    refine ⟨(inForce_reject_sublist hf _).subset hp, ?_⟩
    rintro rfl
    obtain ⟨q, hq, hqactive, heq⟩ := mem_inForce.1 hp
    obtain ⟨t, ht, rfl⟩ := mem_relationships_mapRelationships.1 hq
    by_cases hid : t.id = r.id
    · rw [if_pos (by simpa using hid), hf.status] at hqactive
      contradiction
    · rw [if_neg (by simpa using hid)] at hqactive heq
      obtain ⟨hantecedent, hconsequent⟩ := Prod.mk.inj heq
      exact hid (congrArg _ (h.eq_of_active ht hr hqactive hactive hantecedent hconsequent))
  · rintro ⟨hp, hne⟩
    obtain ⟨t, ht, htactive, rfl⟩ := mem_inForce.1 hp
    refine mem_inForce.2 ⟨t, mem_relationships_mapRelationships.2 ⟨t, ht, if_neg ?_⟩, htactive, rfl⟩
    intro hid
    obtain rfl := h.eq_of_id ht hr (by simpa using hid)
    exact hne rfl

end Contents

end Imageboard
