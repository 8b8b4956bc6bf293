import Imageboard.Proofs.Bulk.Processing
import Imageboard.Proofs.Relationship.Carrying
import Imageboard.Proofs.Relationship.Checking
import Imageboard.Proofs.Relationship.Merging

/-!
# Bulk updates redraw the graph of implications

What a script does to the implications in force can be told from the graph before it and the
commands alone: an implication is an edge more, its removal is an edge less, an alias makes two tags
one, and other commands leave the graph alone. The main statement is that a script that succeeds
leaves exactly the graph that its commands draw one after the other.
-/

namespace Imageboard

open Relationship (Graph)

/-- The implications in force are the edges of a graph. -/
def Contents.Draws (c : Contents) (g : Graph) : Prop :=
  ∀ p, p ∈ c.inForce .implication ↔ p ∈ g.edges

/-- The implications in force are the edges of their graph. -/
theorem Contents.draws_implicationGraph (c : Contents) : c.Draws c.implicationGraph :=
  fun _ => mem_edges_implicationGraph.symm

namespace Bulk

open Store Work Contents

/-- The graph that a command leaves of the graph before it. -/
def Command.redraw : Command → Graph → Graph
  | .createAlias a b, g => g.merge a b
  | .createImplication a b, g => g.insert a b
  | .removeImplication a b, g => g.delete a b
  | _, g => g

/-- An implication that is created leads to another tag, from which there is no way back. -/
def Command.Passes : Command → Graph → Prop
  | .createImplication a b, g => a ≠ b ∧ ¬ g.Reaches b a
  | _, _ => True

/-- The graph that some commands leave of the graph before them. -/
def redrawAll (cs : List Command) (g : Graph) : Graph :=
  cs.foldl (fun g c => c.redraw g) g

/-- Each implication that is created leads, in the graph that the commands before it have left, to
another tag, from which there is no way back. -/
def PassesAll : List Command → Graph → Prop
  | [], _ => True
  | c :: rest, g => c.Passes g ∧ PassesAll rest (c.redraw g)

/-- Implications that obey the rules of the store are the edges of a graph. -/
structure Drawn (g : Graph) (c : Contents) : Prop where
  lawful : Lawful .implication (c.relationships .implication)
  draws : c.Draws g

variable {g : Graph}

/-- Work on users, tags, posts and taggings does not matter to the graph. -/
theorem taggingKeeps_draws : TaggingKeeps fun c => c.Draws g :=
  taggingKeeps_of_ignores fun _ _ _ _ _ h => h

/-- Work on users, tags, posts and taggings does not matter to the rules and the graph. -/
theorem taggingKeeps_drawn : TaggingKeeps (Drawn g) :=
  taggingKeeps_of_ignores fun _ _ _ _ _ h => ⟨h.lawful, h.draws⟩

/-- Moving the implications from one name to another makes two tags one. -/
theorem leads_moveImplications_draws {antecedent consequent : String} (hne : antecedent ≠ consequent) :
    Leads (Drawn g) (moveImplications antecedent consequent) fun _ c =>
      c.Draws (g.merge antecedent consequent) := by
  rintro s n t others ⟨hlawful, hdraws⟩ hrun p
  rw [leads_moveImplications_iff hne s n t ⟨hlawful, rfl⟩ hrun p, Graph.mem_edges_merge]
  exact and_congr_right fun _ => exists_congr fun q => and_congr_left fun _ => hdraws q

/-- Approving an alias makes two tags one. -/
theorem leads_approveAlias_draws {r : Relationship} (hne : r.antecedent ≠ r.consequent)
    (approverId : Option Int) (withPages : Bool) :
    Leads (Drawn g) (Relationship.approveAlias r approverId withPages) fun _ c =>
      c.Draws (g.merge r.antecedent r.consequent) := by
  have haliases : RelationshipKeeps .alias (Drawn g) :=
    relationshipKeeps_of_ignores fun _ _ h => ⟨h.lawful, h.draws⟩
  refine Relationship.leads_approveAlias (keeps_setRelationshipStatus haliases _ _ _).leads
    taggingKeeps_drawn ?_ taggingKeeps_draws fun _ _ _ h => h
  exact (keeps_retargetAliases haliases _ _).leads.bind fun _ => leads_moveImplications_draws hne

namespace Update

variable {u : Update} {viewer : Viewer} {number : Nat}

/-- Creating an alias makes two tags one. -/
theorem leads_createAlias_draws (a b : String) :
    Leads (Drawn g) (u.applyCommand viewer number (.createAlias a b)) fun _ c =>
      c.Draws (g.merge a b) := by
  refine Leads.bind (Q := fun r c => Drawn g c ∧ r.antecedent = a ∧ r.consequent = b ∧ a ≠ b)
    (Relationship.leads_createAlias ?_) fun r => ?_
  · intro c r hc hfrom hto hne _ _ _ _
    exact ⟨⟨hc.lawful, hc.draws⟩, hfrom, hto, hne⟩
  · rintro s n t others ⟨hdrawn, rfl, rfl, hne⟩ hrun
    exact leads_approveAlias_draws hne _ _ s n t hdrawn hrun

/-- Creating an implication draws an edge to another tag, from which there is no way back. -/
theorem leads_createImplication_draws (a b : String) :
    Leads (Drawn g) (u.applyCommand viewer number (.createImplication a b)) fun _ c =>
      (a ≠ b ∧ ¬ g.Reaches b a) ∧ c.Draws (g.insert a b) := by
  refine Leads.bind (Q := fun r c => c.Trails .implication r ∧ c.Draws g ∧ r.antecedent = a ∧
    r.consequent = b ∧ a ≠ b ∧ ¬ g.Reaches b a) (Relationship.leads_createImplication ?_) fun r => ?_
  · rintro c r hc hfrom hto hne - - hcircular hstatus hfresh
    refine ⟨trails_append hstatus hfresh, fun p => ?_, hfrom, hto, hne, fun hback => hcircular ?_⟩
    · have hsame : (c.withRelationships .implication (c.implications ++ [r])).inForce .implication =
          c.inForce .implication := inForce_append_of_ne hstatus
      rw [hsame]
      exact hc.draws p
    · refine Graph.mem_implied.2 ⟨hne, hback.mono fun p hp => ?_⟩
      exact mem_edges_implicationGraph.2 ((hc.draws p).2 hp)
  · refine Relationship.leads_approveImplication
      (leads_setRelationshipStatus (Q := fun c => (a ≠ b ∧ ¬ g.Reaches b a) ∧ c.Draws (g.insert a b))
        rfl ?_) (taggingKeeps_of_ignores fun _ _ _ _ _ h => h)
    rintro c f ⟨htrails, hdraws, rfl, rfl, hpass⟩ hf
    refine ⟨hpass, fun p => ?_⟩
    rw [htrails.inForce_activate hf, List.mem_append, List.mem_singleton, Graph.mem_edges_insert,
      hdraws p]

/-- Removing an implication rubs its edge out. -/
theorem leads_removeImplication_draws (a b : String) :
    Leads (Drawn g) (u.applyCommand viewer number (.removeImplication a b)) fun _ c =>
      c.Draws (g.delete a b) := by
  refine leads_remove fun c r f hc hr hantecedent hconsequent hactive hf p => ?_
  rw [mem_inForce_reject hc.lawful hf hr hactive, Graph.mem_edges_delete, hc.draws p, hantecedent,
    hconsequent]

/-- A command that succeeds leaves the graph that it draws. -/
theorem leads_applyCommand_draws (c : Command) :
    Leads (Drawn g) (u.applyCommand viewer number c) fun _ d => c.Passes g ∧ d.Draws (c.redraw g) := by
  have hsame {α : Type} {w : Work α} (hw : Leads (fun c => c.Draws g) w fun _ c => c.Draws g) :
      Leads (Drawn g) w fun _ c => True ∧ c.Draws g :=
    hw.imp (fun _ h => h.draws) fun _ _ h => ⟨trivial, h⟩
  cases c with
  | createAlias a b =>
    exact (leads_createAlias_draws a b).imp (fun _ h => h) fun _ _ h => ⟨trivial, h⟩
  | createImplication a b => exact leads_createImplication_draws a b
  | removeAlias a b =>
    exact hsame (keeps_remove (relationshipKeeps_of_ignores fun _ _ h => h) _ _ _).leads
  | removeImplication a b =>
    exact (leads_removeImplication_draws a b).imp (fun _ h => h) fun _ _ h => ⟨trivial, h⟩
  | massUpdate query replacement => exact hsame (leads_massUpdate _ _)
  | changeCategory tag category => exact hsame (keeps_changeCategory taggingKeeps_draws _ _).leads

/-- A command that succeeds leaves the rules of the store obeyed. -/
theorem leads_applyCommand_lawful (c : Command) :
    Leads (fun c => Lawful .implication (c.relationships .implication))
      (u.applyCommand viewer number c) fun _ c =>
        Lawful .implication (c.relationships .implication) :=
  leads_applyCommand (taggingKeeps_of_ignores fun _ _ _ _ _ h => h)
    (fun _ => relationshipKeeps_lawful _ _) (fun _ _ _ h => h) c

/-- Commands that succeed one after the other leave the graph that they draw. -/
theorem Applied.drawn {cs : List NumberedCommand} {ms : List Mutation} {s t : Store}
    (h : Applied u viewer number cs s ms t) (hs : Drawn g s.contents) :
    PassesAll (cs.map (·.command)) g ∧ Drawn (redrawAll (cs.map (·.command)) g) t.contents := by
  induction h generalizing g with
  | nil => exact ⟨trivial, hs⟩
  | @cons c rest s m t n ms hfirst _ ih =>
    obtain ⟨hpasses, hdraws⟩ := leads_applyCommand_draws c.command s n m hs hfirst
    have hlawful := leads_applyCommand_lawful c.command s n m hs.lawful hfirst
    obtain ⟨hrest, hdrawn⟩ := ih ⟨hlawful, hdraws⟩
    exact ⟨⟨hpasses, hrest⟩, hdrawn⟩

end Update

end Bulk

end Imageboard
