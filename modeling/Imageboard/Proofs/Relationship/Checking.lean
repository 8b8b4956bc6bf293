import Imageboard.Proofs.Relationship.Changing

/-!
# What new relationships have passed

A new alias or implication is there only if it has passed its rules: its names differ, neither of
them is aliased, and an implication does not lead back from its consequent to its antecedent. The
record is added behind the others, waits for approval, and has an id of its own.
-/

namespace Imageboard

namespace Contents

variable {c : Contents} {name target : String}

/-- The names that have an alias in force. -/
def aliased (c : Contents) : List String :=
  (c.inForce .alias).map (·.1)

/-- The edges of the graph are the pairs in force. -/
theorem mem_edges_implicationGraph {p : String × String} :
    p ∈ c.implicationGraph.edges ↔ p ∈ c.inForce .implication :=
  mem_map_activeRelationships

/-- A name stands for itself exactly if it is not aliased. -/
theorem aliasOf?_eq_none_iff : c.aliasOf? name = none ↔ name ∉ c.aliased := by
  simp only [aliasOf?, Option.map_eq_none_iff, latest?_eq_none_iff, List.filter_eq_nil_iff, aliased,
    List.mem_map, mem_inForce]
  constructor
  · rintro h ⟨p, ⟨r, hr, hactive, rfl⟩, rfl⟩
    exact h r hr (by simp [hactive])
  · intro h r hr hboth
    obtain ⟨rfl, hactive⟩ : r.antecedent = name ∧ r.status = .active := by simpa using hboth
    exact h ⟨_, ⟨r, hr, hactive, rfl⟩, rfl⟩

/-- What an aliased name stands for is the consequent of an alias in force. -/
theorem mem_inForce_of_aliasOf? (h : c.aliasOf? name = some target) :
    (name, target) ∈ c.inForce .alias := by
  obtain ⟨r, hr, rfl⟩ := Option.map_eq_some_iff.1 h
  obtain ⟨hmem, rfl, hactive⟩ : r ∈ c.aliases ∧ r.antecedent = name ∧ r.status = .active := by
    simpa using mem_of_latest? hr
  exact mem_inForce.2 ⟨r, hmem, hactive, rfl⟩

end Contents

namespace Relationship

open Store Work

variable {P : Contents → Prop} {Q : Contents → Prop} {R : Relationship → Contents → Prop}

/-- The graph that is read is that of the contents. -/
theorem leads_implicationGraph :
    Leads P implicationGraph fun g c => P c ∧ g = c.implicationGraph := by
  refine (leads_read _ _ _).bind fun rs => ?_
  refine Leads.imp (leads_pure (Q := fun g c => P c ∧ g = c.implicationGraph) _) ?_ fun _ _ h => h
  rintro c ⟨hc, rfl⟩
  exact ⟨hc, rfl⟩

/-- Nothing is said only if the condition does not hold. -/
theorem sayIf_eq_nil_iff {condition : Bool} {message : String} :
    sayIf condition message = [] ↔ condition = false := by
  cases condition <;> simp [sayIf]

/-- Whatever the secondary rules say, none of the others is broken if nothing is said. -/
theorem leads_secondary {R : Contents → Prop} {rules : List String}
    {secondary : Work (List String)} (hreads : Reads secondary) {skip : Bool}
    (h : ∀ c, P c → Q c ∧ (rules = [] → R c)) :
    Leads P (do
      let more ← if skip then pure [] else secondary
      return rules ++ more) fun errors c => Q c ∧ (errors = [] → R c) := by
  have hreturn (more : List String) :
      Leads P (pure (rules ++ more)) fun errors c => Q c ∧ (errors = [] → R c) := by
    refine Leads.imp (leads_pure (rules ++ more)) (fun c hc => ?_) fun _ _ h => h
    obtain ⟨hbefore, hrules⟩ := h c hc
    exact ⟨hbefore, fun hnil => hrules (List.append_eq_nil_iff.1 hnil).1⟩
  exact Leads.ite (fun _ => (leads_pure (Q := fun _ => P) []).bind hreturn)
    fun _ => hreads.keeps.leads.bind hreturn

/-- An alias that breaks no rule is between two names that are not aliased. -/
theorem leads_aliasErrors (antecedent consequent : String) (config : Config)
    (skipSecondary : Bool) :
    Leads P (aliasErrors antecedent consequent config skipSecondary) fun errors c => P c ∧
      (errors = [] → antecedent ≠ consequent ∧ antecedent ∉ c.aliased ∧ consequent ∉ c.aliased) := by
  refine Leads.ite (fun _ => ?_) fun hne => ?_
  · exact Leads.imp (leads_pure _) (fun c hc => ⟨hc, by simp⟩) fun _ _ h => h
  refine (leads_read _ _ _).bind fun existing => (leads_read _ _ _).bind fun next =>
    leads_get.bind fun s => (reads_categoryOf _).keeps.leads.bind fun first =>
      (reads_categoryOf _).keeps.leads.bind fun second =>
        leads_secondary (reads_secondaryAliasErrors _ _ _) ?_
  rintro c ⟨⟨hc, rfl⟩, rfl⟩
  refine ⟨hc, fun hnil => ?_⟩
  obtain ⟨⟨hfirst, hsecond⟩, -⟩ : (_ = [] ∧ _ = []) ∧ _ = [] := by
    simpa only [List.append_eq_nil_iff] using hnil
  rw [sayIf_eq_nil_iff, Option.isSome_eq_false_iff, Option.isNone_iff_eq_none] at hsecond
  refine ⟨hne, Contents.aliasOf?_eq_none_iff.1 ?_, Contents.aliasOf?_eq_none_iff.1 hsecond⟩
  cases hexisting : c.aliasOf? antecedent with
  | none => rfl
  | some target =>
    rw [hexisting] at hfirst
    contradiction

/-- An implication that breaks no rule is between two names that are not aliased, and what is
implied already does not lead back. -/
theorem leads_implicationErrors (antecedent consequent : String) (skipSecondary : Bool) :
    Leads P (implicationErrors antecedent consequent skipSecondary) fun errors c => P c ∧
      (errors = [] → antecedent ≠ consequent ∧ antecedent ∉ c.aliased ∧ consequent ∉ c.aliased ∧
        antecedent ∉ c.implicationGraph.implied consequent) := by
  refine Leads.ite (fun _ => ?_) fun hne => ?_
  · exact Leads.imp (leads_pure _) (fun c hc => ⟨hc, by simp⟩) fun _ _ h => h
  refine leads_implicationGraph.bind fun g => (leads_read _ _ _).bind fun first =>
    (leads_read _ _ _).bind fun second => leads_secondary (reads_pageErrors _) ?_
  rintro c ⟨⟨⟨hc, rfl⟩, rfl⟩, rfl⟩
  refine ⟨hc, fun hnil => ?_⟩
  obtain ⟨⟨⟨-, hcircular⟩, hfirst⟩, hsecond⟩ : ((_ = [] ∧ _ = []) ∧ _ = []) ∧ _ = [] := by
    simpa only [List.append_eq_nil_iff] using hnil
  rw [sayIf_eq_nil_iff, Option.isSome_eq_false_iff, Option.isNone_iff_eq_none] at hfirst hsecond
  rw [sayIf_eq_nil_iff] at hcircular
  exact ⟨hne, Contents.aliasOf?_eq_none_iff.1 hfirst, Contents.aliasOf?_eq_none_iff.1 hsecond,
    by simpa using hcircular⟩

/-- A request that is not refused breaks no rule. -/
theorem leads_refuseIfAny (errors : List String) (request : String) :
    Leads (fun c => P c ∧ (errors = [] → Q c)) (refuseIfAny errors request) fun _ c => P c ∧ Q c := by
  refine Leads.ite (fun hempty => ?_) fun _ => leads_throw _
  refine Leads.imp (leads_pure (Q := fun _ c => P c ∧ Q c) ()) ?_ fun _ _ h => h
  exact fun c hc => ⟨hc.1, hc.2 (by simpa using hempty)⟩

/-- Creating an alias leads where the longer table leads, if the alias has passed its rules. -/
theorem leads_createAlias {antecedent consequent : String} {config : Config}
    {forumTopicId creatorId : Option Int} {skipSecondary : Bool}
    (h : ∀ c r, P c → r.antecedent = antecedent → r.consequent = consequent →
      antecedent ≠ consequent → antecedent ∉ c.aliased → consequent ∉ c.aliased →
      r.status ≠ .active → (∀ q ∈ c.aliases, q.id ≠ r.id) →
      R r (c.withRelationships .alias (c.aliases ++ [r]))) :
    Leads P (createAlias antecedent consequent config forumTopicId creatorId skipSecondary) R := by
  refine (leads_aliasErrors _ _ _ _).bind fun errors => (leads_refuseIfAny _ _).bind fun _ =>
    leads_insertRelationship ?_
  rintro c r ⟨hc, hne, hantecedent, hconsequent⟩ hfrom hto hstatus hfresh
  exact h c r hc hfrom hto hne hantecedent hconsequent (Status.ne_active_of_pending hstatus) hfresh

/-- Creating an implication leads where the longer table leads, if it has passed its rules. -/
theorem leads_createImplication {antecedent consequent : String}
    {forumTopicId creatorId : Option Int} {skipSecondary : Bool}
    (h : ∀ c r, P c → r.antecedent = antecedent → r.consequent = consequent →
      antecedent ≠ consequent → antecedent ∉ c.aliased → consequent ∉ c.aliased →
      antecedent ∉ c.implicationGraph.implied consequent → r.status ≠ .active →
      (∀ q ∈ c.implications, q.id ≠ r.id) →
      R r (c.withRelationships .implication (c.implications ++ [r]))) :
    Leads P (createImplication antecedent consequent forumTopicId creatorId skipSecondary) R := by
  refine (leads_implicationErrors _ _ _).bind fun errors => (leads_refuseIfAny _ _).bind fun _ =>
    leads_insertRelationship ?_
  rintro c r ⟨hc, hne, hantecedent, hconsequent, hcircular⟩ hfrom hto hstatus hfresh
  exact h c r hc hfrom hto hne hantecedent hconsequent hcircular
    (Status.ne_active_of_pending hstatus) hfresh

end Relationship

end Imageboard
