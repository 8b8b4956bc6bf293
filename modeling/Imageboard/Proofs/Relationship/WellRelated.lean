import Imageboard.Proofs.Relationship.Checking

/-!
# Well related names

The names of a store are well related if aliases in force form no chains, no name has two of them,
and implications in force are not on aliased names. A new alias is checked on its own two names
only; what it would break elsewhere is mended when it is approved, by retargeting the aliases that
point to its antecedent and moving the implications on it.
-/

namespace Imageboard

namespace Contents

variable {c d : Contents} {antecedent consequent : String} {r : Relationship}

/-- No alias in force leads to an aliased name. -/
def Flat (c : Contents) : Prop :=
  ∀ p ∈ c.inForce .alias, p.2 ∉ c.aliased

/-- Aliases in force form no chains, no name has two of them, and implications in force are not on
aliased names. -/
structure WellRelated (c : Contents) : Prop where
  flat : c.Flat
  single : c.aliased.Nodup
  apart : ∀ p ∈ c.inForce .implication, p.1 ∉ c.aliased ∧ p.2 ∉ c.aliased

instance (c : Contents) : Decidable c.WellRelated :=
  decidable_of_iff ((∀ p ∈ c.inForce .alias, p.2 ∉ c.aliased) ∧ c.aliased.Nodup ∧
      ∀ p ∈ c.inForce .implication, p.1 ∉ c.aliased ∧ p.2 ∉ c.aliased)
    ⟨fun h => ⟨h.1, h.2.1, h.2.2⟩, fun h => ⟨h.flat, h.single, h.apart⟩⟩

/-- Names stay well related if relationships only go out of force. -/
theorem WellRelated.mono (h : c.WellRelated)
    (haliases : (d.inForce .alias).Sublist (c.inForce .alias))
    (himplications : d.inForce .implication ⊆ c.inForce .implication) : d.WellRelated := by
  have hnames : d.aliased.Sublist c.aliased := haliases.map _
  refine ⟨fun p hp hmem => h.flat p (haliases.subset hp) (hnames.subset hmem),
    h.single.sublist hnames, fun p hp => ?_⟩
  obtain ⟨hfirst, hsecond⟩ := h.apart p (himplications hp)
  exact ⟨fun hmem => hfirst (hnames.subset hmem), fun hmem => hsecond (hnames.subset hmem)⟩

/-- A relationship waits, behind the others, to be put into force between two names that are not
aliased. -/
structure Waits (kind : RelationshipKind) (r : Relationship) (c : Contents) : Prop extends
    c.Trails kind r where
  wellRelated : c.WellRelated
  ne : r.antecedent ≠ r.consequent
  source : r.antecedent ∉ c.aliased
  target : r.consequent ∉ c.aliased

/-- A relationship that was just added waits. -/
theorem WellRelated.waits (h : c.WellRelated) (kind : RelationshipKind)
    (hne : r.antecedent ≠ r.consequent) (hsource : r.antecedent ∉ c.aliased)
    (htarget : r.consequent ∉ c.aliased) (hstatus : r.status ≠ .active)
    (hfresh : ∀ q ∈ c.relationships kind, q.id ≠ r.id) :
    (c.withRelationships kind (c.relationships kind ++ [r])).Waits kind r := by
  have hsame (k : RelationshipKind) :
      (c.withRelationships kind (c.relationships kind ++ [r])).inForce k = c.inForce k := by
    by_cases hk : k = kind
    · subst hk
      exact inForce_append_of_ne hstatus
    · cases k <;> cases kind <;> first | rfl | exact absurd rfl hk
  have haliased : (c.withRelationships kind (c.relationships kind ++ [r])).aliased = c.aliased := by
    rw [aliased, aliased, hsame]
  refine ⟨trails_append hstatus hfresh, h.mono ?_ ?_, hne, haliased ▸ hsource, haliased ▸ htarget⟩
  · rw [hsame]
  · rw [hsame]
    exact List.Subset.refl _

/-- A new alias is in force; other relationships may still lead to its antecedent or be on it. -/
structure Merging (antecedent consequent : String) (c : Contents) : Prop where
  ne : antecedent ≠ consequent
  single : c.aliased.Nodup
  target : consequent ∉ c.aliased
  flat : ∀ p ∈ c.inForce .alias, p.2 ∈ c.aliased → p.2 = antecedent
  apart : ∀ p ∈ c.inForce .implication,
    (p.1 ∈ c.aliased → p.1 = antecedent) ∧ (p.2 ∈ c.aliased → p.2 = antecedent)

/-- Putting a new alias into force aliases its antecedent. -/
theorem Waits.merging (h : c.Waits .alias r) {f : Relationship → Relationship}
    (hf : Relationship.Settles .active f) :
    (c.mapRelationships .alias (·.id = r.id) f).Merging r.antecedent r.consequent := by
  have haliases := h.inForce_activate hf
  have haliased : (c.mapRelationships .alias (·.id = r.id) f).aliased =
      c.aliased ++ [r.antecedent] := by
    rw [aliased, haliases, List.map_append]
    rfl
  refine ⟨h.ne, ?_, ?_, fun p hp hmem => ?_, fun p hp => ?_⟩
  · rw [haliased]
    exact List.nodup_append_comm.1 (List.nodup_cons.2 ⟨h.source, h.wellRelated.single⟩)
  · rw [haliased, List.mem_append, List.mem_singleton, not_or]
    exact ⟨h.target, h.ne.symm⟩
  · rw [haliased, List.mem_append, List.mem_singleton] at hmem
    rw [haliases, List.mem_append, List.mem_singleton] at hp
    rcases hmem with hmem | hmem
    · rcases hp with hp | rfl
      · exact absurd hmem (h.wellRelated.flat p hp)
      · exact absurd hmem h.target
    · exact hmem
  · obtain ⟨hfirst, hsecond⟩ := h.wellRelated.apart p hp
    rw [haliased, List.mem_append, List.mem_append, List.mem_singleton, List.mem_singleton]
    exact ⟨fun hmem => hmem.resolve_left hfirst, fun hmem => hmem.resolve_left hsecond⟩

/-- Retargeting aliases changes the consequents of pairs in force. -/
theorem inForce_retarget (c : Contents) (oldName newName : String) (stamp : Value) :
    (c.mapRelationships .alias
      (fun r => r.consequent = oldName && r.status = .active && r.antecedent ≠ newName)
      fun r => { r with consequent := newName, updatedAt := stamp }).inForce .alias =
    (c.inForce .alias).map fun p =>
      if p.2 = oldName ∧ p.1 ≠ newName then (p.1, newName) else p := by
  simp only [inForce, mapRelationships, relationships_withRelationships]
  induction c.relationships .alias with
  | nil => rfl
  | cons r rest ih =>
    simp only [List.map_cons, List.filter_cons]
    by_cases hactive : r.status = .active
    · by_cases hto : r.consequent = oldName <;> by_cases hfrom : r.antecedent = newName <;>
        simp_all
    · simp_all

/-- Retargeting the aliases that lead to the antecedent of a new alias leaves no chain. -/
theorem Merging.retarget (h : c.Merging antecedent consequent) (stamp : Value)
    (hd : d = c.mapRelationships .alias
      (fun r => r.consequent = antecedent && r.status = .active && r.antecedent ≠ consequent)
      fun r => { r with consequent := consequent, updatedAt := stamp }) :
    d.Merging antecedent consequent ∧ d.Flat := by
  have haliases : d.inForce .alias = (c.inForce .alias).map fun p =>
      if p.2 = antecedent ∧ p.1 ≠ consequent then (p.1, consequent) else p := by
    rw [hd, inForce_retarget]
  have haliased : d.aliased = c.aliased := by
    rw [aliased, aliased, haliases, List.map_map]
    refine List.map_congr_left fun p _ => ?_
    dsimp only [Function.comp]
    split <;> rfl
  have hflat : d.Flat := by
    intro p hp
    rw [haliases] at hp
    obtain ⟨q, hq, rfl⟩ := List.mem_map.1 hp
    rw [haliased]
    split
    next => exact h.target
    next hkept =>
      intro hmem
      have hto := h.flat q hq hmem
      have hfrom : q.1 = consequent := by
        by_contra hfrom
        exact hkept ⟨hto, hfrom⟩
      exact h.target (hfrom ▸ List.mem_map_of_mem hq)
  refine ⟨⟨h.ne, haliased ▸ h.single, haliased ▸ h.target, fun p hp hmem => absurd hmem (hflat p hp),
    ?_⟩, hflat⟩
  rw [haliased, hd]
  exact h.apart

end Contents

end Imageboard
