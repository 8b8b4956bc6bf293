import Imageboard.Proofs.Relationship.Settling
import Imageboard.Proofs.Relationship.WellRelated
import Imageboard.Proofs.Search.Resolving

/-!
# What names stand for after an approval

An alias comes into force and other aliases to its antecedent are retargeted. As the antecedent was not
aliased before, each name then stands for what it stood for, with the consequent put for the
antecedent.
-/

namespace Imageboard.Contents

variable {c d : Contents} {r : Relationship} {f : Relationship → Relationship}
  {oldName newName name target : String}

/-- A name has one alias in force at most, which says what it stands for. -/
theorem Lawful.standsFor_of_mem (h : Lawful .alias c.aliases)
    (hmem : (name, target) ∈ c.inForce .alias) : c.standsFor name = target := by
  cases hfound : c.aliasOf? name with
  | none => exact absurd (List.mem_map_of_mem hmem) (aliasOf?_eq_none_iff.1 hfound)
  | some other =>
    obtain ⟨q, hq, hqactive, hqpair⟩ := mem_inForce.1 hmem
    obtain ⟨s, hs, hsactive, hspair⟩ := mem_inForce.1 (mem_inForce_of_aliasOf? hfound)
    obtain ⟨hqname, rfl⟩ := Prod.mk.inj hqpair
    obtain ⟨hsname, rfl⟩ := Prod.mk.inj hspair
    have hsame : q = s := by
      by_contra hne
      have hclash := h.keyed.forall hq hs hne
      have hid : q.id ≠ s.id := fun hid => hne (h.eq_of_id hq hs hid)
      simp [clashes, hid, hqactive, hsactive, hqname, hsname] at hclash
    rw [standsFor, hfound, hsame]
    rfl

/-- A name that is not aliased stands for itself. -/
theorem standsFor_of_not_mem (hnot : name ∉ c.aliased) : c.standsFor name = name := by
  rw [standsFor, aliasOf?_eq_none_iff.2 hnot]
  rfl

/-- Putting a record into force adds its pair. -/
theorem mem_inForce_activate {kind : RelationshipKind} {p : String × String}
    (h : Lawful kind (c.relationships kind)) (hf : Relationship.Settles .active f)
    (hr : r ∈ c.relationships kind) :
    p ∈ (c.mapRelationships kind (·.id = r.id) f).inForce kind ↔
      p ∈ c.inForce kind ∨ p = (r.antecedent, r.consequent) := by
  simp only [mem_inForce, mem_relationships_mapRelationships]
  constructor
  · rintro ⟨q, ⟨t, ht, rfl⟩, hactive, rfl⟩
    by_cases hid : t.id = r.id
    · obtain rfl := h.eq_of_id ht hr hid
      right
      rw [if_pos (by simp), hf.antecedent, hf.consequent]
    · rw [if_neg (by simpa using hid)] at hactive ⊢
      exact Or.inl ⟨t, ht, hactive, rfl⟩
  · rintro (⟨t, ht, hactive, rfl⟩ | rfl)
    · by_cases hid : t.id = r.id
      · obtain rfl := h.eq_of_id ht hr hid
        refine ⟨f t, ⟨t, ht, if_pos (by simp)⟩, hf.status t, ?_⟩
        rw [hf.antecedent, hf.consequent]
      · exact ⟨t, ⟨t, ht, if_neg (by simpa using hid)⟩, hactive, rfl⟩
    · refine ⟨f r, ⟨r, hr, if_pos (by simp)⟩, hf.status r, ?_⟩
      rw [hf.antecedent, hf.consequent]

/-- Once an alias is in force and the aliases to its antecedent are retargeted, the pairs in force are
the new one and the old ones with the consequent put for the antecedent. -/
theorem mem_inForce_retargeted {p : String × String} (h : Lawful .alias c.aliases)
    (hf : Relationship.Settles .active f) (hr : r ∈ c.aliases) (htarget : r.consequent ∉ c.aliased)
    (hd : d.inForce .alias = ((c.mapRelationships .alias (·.id = r.id) f).inForce .alias).map fun p =>
      if p.2 = r.antecedent ∧ p.1 ≠ r.consequent then (p.1, r.consequent) else p) :
    p ∈ d.inForce .alias ↔ p = (r.antecedent, r.consequent) ∨
      ∃ q ∈ c.inForce .alias, (q.1, Store.renamed r.antecedent r.consequent q.2) = p := by
  have hproper := h.proper r hr
  have hkept : ∀ q ∈ c.inForce .alias,
      (if q.2 = r.antecedent ∧ q.1 ≠ r.consequent then (q.1, r.consequent) else q) =
        (q.1, Store.renamed r.antecedent r.consequent q.2) := by
    intro q hq
    have hfrom : q.1 ≠ r.consequent := fun heq => htarget (heq ▸ List.mem_map_of_mem hq)
    by_cases hto : q.2 = r.antecedent
    · simp [Store.renamed, hto, hfrom]
    · simp [Store.renamed, hto]
  simp only [hd, List.mem_map, mem_inForce_activate h hf hr]
  constructor
  · rintro ⟨q, hq | rfl, rfl⟩
    · exact Or.inr ⟨q, hq, (hkept q hq).symm⟩
    · rw [if_neg fun hto => hproper hto.1.symm]
      exact Or.inl rfl
  · rintro (rfl | ⟨q, hq, rfl⟩)
    · exact ⟨_, Or.inr rfl, if_neg fun hto => hproper hto.1.symm⟩
    · exact ⟨q, Or.inl hq, hkept q hq⟩

/-- With such pairs in force, each name stands for what it stood for with the consequent put for the
antecedent. -/
theorem standsFor_renamed (hc : Lawful .alias c.aliases) (hd : Lawful .alias d.aliases)
    (hsource : oldName ∉ c.aliased)
    (hinForce : ∀ p, p ∈ d.inForce .alias ↔ p = (oldName, newName) ∨
      ∃ q ∈ c.inForce .alias, (q.1, Store.renamed oldName newName q.2) = p) (name : String) :
    d.standsFor name = Store.renamed oldName newName (c.standsFor name) := by
  by_cases hname : name = oldName
  · subst hname
    rw [hd.standsFor_of_mem ((hinForce _).2 (Or.inl rfl)), standsFor_of_not_mem hsource, Store.renamed,
      if_pos rfl]
  · by_cases haliased : name ∈ c.aliased
    · obtain ⟨q, hq, rfl⟩ := List.mem_map.1 haliased
      have hafter := (hinForce _).2 (Or.inr ⟨q, hq, rfl⟩)
      rw [hd.standsFor_of_mem hafter, hc.standsFor_of_mem hq]
    · have hafter : name ∉ d.aliased := by
        intro hmem
        obtain ⟨p, hp, rfl⟩ := List.mem_map.1 hmem
        rcases (hinForce p).1 hp with rfl | ⟨q, hq, rfl⟩
        · exact hname rfl
        · exact haliased (List.mem_map.2 ⟨q, hq, rfl⟩)
      rw [standsFor_of_not_mem hafter, standsFor_of_not_mem haliased, Store.renamed_of_ne hname]

end Imageboard.Contents
