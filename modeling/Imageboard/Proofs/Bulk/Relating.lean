import Imageboard.Proofs.Bulk.Processing
import Imageboard.Proofs.Relationship.Moving
import Imageboard.Proofs.Search.Resolving

/-!
# Bulk updates keep names well related

Each command of a script leads from well related names back to them: a new relationship is between
two names that are not aliased, and what else its approval changes is followed step by step. A
command that fails halfway is taken back with the whole script, so no more is needed.
-/

namespace Imageboard

open Store Work

namespace Relationship

open Contents

/-- Work on users, tags, posts and taggings keeps names well related. -/
theorem taggingKeeps_wellRelated : TaggingKeeps WellRelated :=
  taggingKeeps_of_ignores fun _ _ _ _ _ h => ⟨h.flat, h.single, h.apart⟩

/-- Work on users, tags, posts and taggings does not matter to a new alias. -/
theorem taggingKeeps_merging (antecedent consequent : String) :
    TaggingKeeps (Merging antecedent consequent) :=
  taggingKeeps_of_ignores fun _ _ _ _ _ h => ⟨h.ne, h.single, h.target, h.flat, h.apart⟩

/-- Moving the implications on the antecedent of a new alias makes names well related. -/
theorem leads_moveImplications_wellRelated (antecedent consequent : String) :
    Leads (fun c => c.Merging antecedent consequent ∧ c.Flat)
      (moveImplications antecedent consequent) fun _ => WellRelated := by
  rintro s n t others ⟨hmerging, hflat⟩ hrun
  have hmoved := leads_moveImplications hmerging.ne s n t rfl hrun
  have haliases : t.contents.inForce .alias = s.contents.inForce .alias :=
    (keeps_moveImplications (P := fun c => c.inForce .alias = s.contents.inForce .alias)
      (relationshipKeeps_of_ignores fun _ _ h => h) _ _).leads s n t rfl hrun
  have haliased : t.contents.aliased = s.contents.aliased := by
    rw [aliased, aliased, haliases]
  have hname (name : String) (h : name ∈ s.contents.aliased → name = antecedent) :
      renamed antecedent consequent name ∉ s.contents.aliased := by
    rw [renamed]
    split
    next => exact hmerging.target
    next hne => exact fun hmem => hne (h hmem)
  refine ⟨fun p hp => ?_, haliased ▸ hmerging.single, fun p hp => ?_⟩
  · rw [haliased]
    exact hflat p (haliases ▸ hp)
  · obtain ⟨-, -, q, hq, rfl⟩ := hmoved p hp
    obtain ⟨hfirst, hsecond⟩ := hmerging.apart q hq
    rw [haliased]
    exact ⟨hname q.1 hfirst, hname q.2 hsecond⟩

/-- Putting an alias into force, with all that follows, leaves names well related. -/
theorem leads_approveAlias_wellRelated (r : Relationship) (approverId : Option Int)
    (withPages : Bool) :
    Leads (Waits .alias r) (approveAlias r approverId withPages) fun _ => WellRelated := by
  refine leads_approveAlias (leads_setRelationshipStatus rfl fun c f hc hf => hc.merging hf)
    (taggingKeeps_merging _ _) ?_ taggingKeeps_wellRelated fun _ _ _ h => ⟨h.flat, h.single, h.apart⟩
  exact Leads.bind (Q := fun _ c => c.Merging r.antecedent r.consequent ∧ c.Flat)
    (leads_retargetAliases fun c stamp hc => hc.retarget stamp rfl) fun _ =>
    leads_moveImplications_wellRelated _ _

/-- Putting an implication into force leaves names well related. -/
theorem leads_approveImplication_wellRelated (r : Relationship) (approverId : Option Int) :
    Leads (Waits .implication r) (approveImplication r approverId) fun _ => WellRelated := by
  refine leads_approveImplication (leads_setRelationshipStatus rfl fun c f hc hf => ?_)
    taggingKeeps_wellRelated
  refine ⟨hc.wellRelated.flat, hc.wellRelated.single, fun p hp => ?_⟩
  rw [hc.inForce_activate hf, List.mem_append, List.mem_singleton] at hp
  rcases hp with hp | rfl
  · exact hc.wellRelated.apart p hp
  · exact ⟨hc.source, hc.target⟩

end Relationship

namespace Bulk.Update

open Contents Relationship

variable {u : Update} {viewer : Viewer} {number : Nat}

/-- Taking a relationship out of force leaves names well related. -/
theorem leads_remove_wellRelated (kind : RelationshipKind) (word antecedent consequent : String) :
    Leads WellRelated (remove kind word antecedent consequent) fun _ => WellRelated := by
  refine leads_remove fun c r f hc _ _ _ _ hf => ?_
  have hless : ((c.mapRelationships kind (·.id = r.id) f).inForce kind).Sublist (c.inForce kind) :=
    inForce_reject_sublist hf _
  rcases kind with _ | _
  · exact hc.mono hless (List.Subset.refl _)
  · exact hc.mono (List.Sublist.refl _) hless.subset

/-- A command leaves names well related if it succeeds. -/
theorem leads_applyCommand_wellRelated (c : Command) :
    Leads WellRelated (u.applyCommand viewer number c) fun _ => WellRelated := by
  cases c with
  | createAlias antecedent consequent =>
    refine Leads.bind (Q := fun r => Waits .alias r) (leads_createAlias ?_) fun r =>
      leads_approveAlias_wellRelated r _ _
    rintro c r hc rfl rfl hne hsource htarget hstatus hfresh
    exact hc.waits .alias hne hsource htarget hstatus hfresh
  | createImplication antecedent consequent =>
    refine Leads.bind (Q := fun r => Waits .implication r) (leads_createImplication ?_) fun r =>
      leads_approveImplication_wellRelated r _
    rintro c r hc rfl rfl hne hsource htarget - hstatus hfresh
    exact hc.waits .implication hne hsource htarget hstatus hfresh
  | removeAlias antecedent consequent => exact leads_remove_wellRelated _ _ _ _
  | removeImplication antecedent consequent => exact leads_remove_wellRelated _ _ _ _
  | massUpdate query replacement => exact leads_massUpdate _ _
  | changeCategory tag category => exact (keeps_changeCategory taggingKeeps_wellRelated _ _).leads

end Bulk.Update

/-- The store after some bulk updates, done one after the other, of which any may fail. -/
def Bulk.processAll (s : Store) (scripts : List (Update × Viewer)) : Store :=
  scripts.foldl (fun s script => ((script.1.process script.2).runOn s).2) s

open Contents

/-- Bulk updates leave names well related. -/
theorem Bulk.wellRelated_processAll {s : Store} (h : s.contents.WellRelated)
    (scripts : List (Update × Viewer)) : (processAll s scripts).contents.WellRelated := by
  induction scripts generalizing s with
  | nil => exact h
  | cons script rest ih =>
    exact ih (Update.contents_process (fun _ c => Update.leads_applyCommand_wellRelated c) h)

/-- Bulk updates, whatever they are and whether they succeed or fail, leave well related names well
related. So what a name stands for then always stands for itself, also for a searcher who asks for
the one after the other. -/
theorem Bulk.wellRelated_and_resolve_idempotent (s : Store) (h : s.contents.WellRelated)
    (scripts : List (Update × Viewer)) :
    let t := processAll s scripts
    t.contents.WellRelated ∧
      (∀ name, t.contents.standsFor (t.contents.standsFor name) = t.contents.standsFor name) ∧
      (t.contents.has .aliases → ∀ name counts, ∃ target after last,
        (Searcher.resolve name).runOn ⟨t, .fresh t, counts⟩ = (.ok target, after) ∧
        (Searcher.resolve target).runOn after = (.ok target, last)) := by
  intro t
  have hrelated := wellRelated_processAll h scripts
  refine ⟨hrelated, hrelated.standsFor_standsFor, fun htable name counts => ?_⟩
  obtain ⟨after, hfirst, hstore, hfaithful⟩ :=
    (Searcher.faithful_fresh t counts).runOn_resolve htable name
  have htable' : after.store.contents.has .aliases := by
    rw [hstore]
    exact htable
  obtain ⟨last, hsecond, -⟩ := hfaithful.runOn_resolve htable' (t.contents.standsFor name)
  have hsame : after.store.contents.standsFor (t.contents.standsFor name) =
      t.contents.standsFor name := by
    rw [hstore]
    exact hrelated.standsFor_standsFor name
  rw [hsame] at hsecond
  exact ⟨t.contents.standsFor name, after, last, hfirst, hsecond⟩

/-- Contents in which kittens are cats and cats are animals. -/
def Bulk.kittenContents : Contents :=
  { Contents.empty with
    aliases := [⟨1, "kitten", "cat", .active, none, none, none, .null, .null⟩]
    implications := [⟨1, "cat", "animal", .active, none, none, none, .null, .null⟩] }

/-- Names stay well related when cats become felines and felines mammals. -/
theorem Bulk.wellRelated_and_resolve_idempotent_kitten :
    let s : Store := .ofContents kittenContents ⟨0, 0⟩ .standard
    let t := processAll s [(.ofText "alias cat -> feline" .standard, .anonymous),
      (.ofText "imply feline -> mammal" .standard, .anonymous)]
    s.contents.WellRelated ∧ t.contents.WellRelated :=
  ⟨by decide, (wellRelated_and_resolve_idempotent _ (by decide) _).1⟩

end Imageboard
