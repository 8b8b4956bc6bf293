import Imageboard.Proofs.Bulk.Redrawing
import Imageboard.Proofs.Relationship.WellRelated

/-!
# Cycles of implications after bulk updates

An implication that is created is checked not to close a cycle, but an alias is not, although it
makes two tags one. So a script can leave a cycle where there was none. The main statement is that
this is the only way: after none of the commands of a script there is a cycle exactly if no alias of
it joins the ends of a detour, a path of two edges or more.
-/

namespace Imageboard.Bulk

open Store Work Contents
open Relationship (Graph)

/-- An alias is between two tags of which a path of two edges or more leads from one to the other. -/
def Command.JoinsDetour : Command → Graph → Prop
  | .createAlias a b, g => g.Detour a b ∨ g.Detour b a
  | _, _ => False

/-- Some alias joins the ends of a detour of the graph that the commands before it have left. -/
def JoinsDetour : List Command → Graph → Prop
  | [], _ => False
  | c :: rest, g => c.JoinsDetour g ∨ JoinsDetour rest (c.redraw g)

/-- A command that passes its check closes a cycle exactly if it is an alias that joins the ends of a
detour. -/
theorem Command.acyclic_redraw_iff {c : Command} {g : Graph} (hg : g.Acyclic) (hpasses : c.Passes g) :
    (c.redraw g).Acyclic ↔ ¬ c.JoinsDetour g := by
  cases c with
  | createAlias a b => exact hg.merge_iff.trans not_or.symm
  | createImplication a b => exact iff_of_true (hg.insert hpasses.1 hpasses.2) not_false
  | removeImplication a b =>
    exact iff_of_true (hg.mono fun _ he => (Graph.mem_edges_delete.1 he).1) not_false
  | removeAlias a b | massUpdate query replacement | changeCategory tag category =>
    exact iff_of_true hg not_false

/-- None of some commands leaves a cycle exactly if no alias of them joins the ends of a detour. -/
theorem acyclic_redrawAll_iff {cs : List Command} {g : Graph} (hg : g.Acyclic)
    (hpasses : PassesAll cs g) :
    (∀ before, before <+: cs → (redrawAll before g).Acyclic) ↔ ¬ JoinsDetour cs g := by
  induction cs generalizing g with
  | nil =>
    refine iff_of_true (fun before hbefore => ?_) not_false
    rw [List.prefix_nil.1 hbefore]
    exact hg
  | cons c rest ih =>
    obtain ⟨hfirst, hrest⟩ := hpasses
    have hstep := Command.acyclic_redraw_iff hg hfirst
    constructor
    · intro hall
      have hnext : (c.redraw g).Acyclic := hall [c] ⟨rest, rfl⟩
      refine not_or.2 ⟨hstep.1 hnext, (ih hnext hrest).1 fun before hbefore => ?_⟩
      exact hall (c :: before) (List.prefix_cons_inj c |>.2 hbefore)
    · intro hnone before hbefore
      obtain ⟨hnot, hnotrest⟩ := not_or.1 hnone
      cases before with
      | nil => exact hg
      | cons d before =>
        obtain ⟨rfl, htail⟩ := List.cons_prefix_cons.1 hbefore
        exact (ih (hstep.2 hnot) hrest).2 hnotrest before htail

namespace Update

variable {u : Update} {viewer : Viewer} {number : Nat} {s t : Store} {cs : List NumberedCommand}

/-- A store that is passed through on the way, when some first commands have been applied. -/
def Visits (u : Update) (viewer : Viewer) (s : Store) (cs : List NumberedCommand) (m : Store) : Prop :=
  ∃ before ms, before <+: cs ∧ Applied u viewer (s.transactionCount + 1) before s.begun ms m

/-- The stores on the way have no cycle exactly if no alias joins the ends of a detour. -/
theorem acyclic_visits_iff {ms : List Mutation} {inside : Store} {g : Graph} (hg : g.Acyclic)
    (hs : Drawn g s.contents) (h : u.Succeeds viewer s cs ms inside) :
    (∀ m, u.Visits viewer s cs m → m.contents.implicationGraph.Acyclic) ↔
      ¬ JoinsDetour (cs.map (·.command)) g := by
  have hbegun : Drawn g s.begun.contents := hs
  rw [← acyclic_redrawAll_iff hg (h.applied.drawn hbegun).1]
  constructor
  · intro hall before hbefore
    obtain ⟨first, hfirst, rfl⟩ := List.prefix_map_iff.1 hbefore
    obtain ⟨rest, rfl⟩ := hfirst
    obtain ⟨ms', m, -, happlied, -⟩ := applied_append_iff.1 h.applied
    have hdraws := (happlied.drawn hbegun).2.draws
    refine (Graph.acyclic_congr fun e => ?_).1 (hall m ⟨first, ms', ⟨rest, rfl⟩, happlied⟩)
    exact mem_edges_implicationGraph.trans (hdraws e)
  · rintro hall m ⟨first, ms', hfirst, happlied⟩
    have hdraws := (happlied.drawn hbegun).2.draws
    refine (Graph.acyclic_congr fun e => ?_).2 (hall _ (hfirst.map _))
    exact mem_edges_implicationGraph.trans (hdraws e)

/-- A bulk update on a store whose implications form no cycle leaves their graph alone unless it
succeeds. If it succeeds, then it leaves the graph that its commands draw, and there is no cycle on
the way and in the end exactly if no alias of it joins the ends of a detour. -/
theorem acyclic_process_iff (u : Update) (viewer : Viewer) (s : Store)
    (hlawful : Lawful .implication s.contents.implications)
    (hacyclic : s.contents.implicationGraph.Acyclic) :
    let g := s.contents.implicationGraph
    let t := ((u.process viewer).runOn s).2
    (¬ (∃ cs ms inside, u.Succeeds viewer s cs ms inside) → t.contents.implicationGraph = g) ∧
    ∀ cs ms inside, u.Succeeds viewer s cs ms inside →
      let commands := cs.map (·.command)
      t.contents.Draws (redrawAll commands g) ∧
      (t.contents.implicationGraph.Acyclic ↔ (redrawAll commands g).Acyclic) ∧
      ((∀ m, u.Visits viewer s cs m → m.contents.implicationGraph.Acyclic) ↔
        ¬ JoinsDetour commands g) ∧
      (¬ JoinsDetour commands g → t.contents.implicationGraph.Acyclic) := by
  intro g t
  refine ⟨fun hfails => ?_, fun cs ms inside h => ?_⟩
  · obtain ⟨r, after, hrun, -, huntouched⟩ := runOn_process_of_not_succeeds hfails
    have ht : t = after := congrArg Prod.snd hrun
    rw [ht, Contents.implicationGraph, huntouched.contents]
    rfl
  · have hdrawn : Drawn g s.contents := ⟨hlawful, s.contents.draws_implicationGraph⟩
    have hvisits := acyclic_visits_iff hacyclic hdrawn h
    have hdraws := (h.applied.drawn (show Drawn g s.begun.contents from hdrawn)).2.draws
    have hcontents : t.contents = inside.contents := h.contents_process
    refine ⟨hcontents ▸ hdraws, ?_, hvisits, fun hnone => ?_⟩
    · rw [hcontents]
      exact Graph.acyclic_congr fun e => mem_edges_implicationGraph.trans (hdraws e)
    · rw [hcontents]
      exact hvisits.2 hnone inside ⟨cs, ms, List.prefix_rfl, h.applied⟩

/-- Contents in which kittens are cats and cats are animals, both by implication. -/
def detourContents : Contents :=
  { Contents.empty with
    implications := [⟨1, "kitten", "cat", .active, none, none, none, .null, .null⟩,
      ⟨2, "cat", "animal", .active, none, none, none, .null, .null⟩] }

/-- There is no cycle where kittens are cats and cats are animals. -/
theorem acyclic_detourContents : detourContents.implicationGraph.Acyclic := by
  let rank (name : String) : Nat := if name = "kitten" then 0 else if name = "cat" then 1 else 2
  refine Graph.acyclic_of_lt rank fun e he => ?_
  have hup : ∀ p ∈ detourContents.inForce .implication, rank p.1 < rank p.2 := by decide
  exact hup e (mem_edges_implicationGraph.1 he)

/-- An alias of kittens to animals can be created where kittens are cats and cats are animals. -/
theorem runOn_createAlias_detour :
    ∃ m, (applyCommand (.ofText "alias kitten -> animal" .standard) .anonymous 1
      (.createAlias "kitten" "animal")).runOn
        (Store.ofContents detourContents ⟨0, 0⟩ .standard).begun = (.ok 0, m) := by
  refine exists_runOn_eq_ok ?_
  let stamp := (Store.ofContents detourContents ⟨0, 0⟩ .standard).stamp
  let r : Relationship := ⟨1, "kitten", "animal", .pending, none, none, none, stamp, stamp⟩
  rw [applyCommand, runOn_bind_of_fst (a := r) (by decide +kernel), Relationship.approveAlias]
  rw [runOn_bind_of_fst (a := ()) (by decide +kernel)]
  rw [runOn_bind_of_fst (a := ⟨1, "kitten", 0, 0, stamp, stamp⟩) (by decide +kernel)]
  rw [runOn_bind_of_fst (a := ⟨2, "animal", 0, 0, stamp, stamp⟩) (by decide +kernel)]
  rw [runOn_bind_of_fst (a := 0) (by decide +kernel), runOn_bind]
  rw [runOn_moveImplications_of_sorted ⟨by decide +kernel, by decide +kernel⟩ (by decide +kernel)]
  decide +kernel

/-- A script with that alias succeeds. -/
theorem succeeds_detour :
    ∃ m, Succeeds (.ofText "alias kitten -> animal" .standard) .anonymous
      (.ofContents detourContents ⟨0, 0⟩ .standard) [⟨.createAlias "kitten" "animal", 1⟩]
      [⟨⟨.createAlias "kitten" "animal", 1⟩, 0⟩] m := by
  obtain ⟨m, hrun⟩ := runOn_createAlias_detour
  exact ⟨m, by decide +kernel, ⟨rfl, rfl, rfl⟩, .cons hrun (.nil m), rfl⟩

/-- Where kittens are cats and cats are animals, a script can succeed, and then the graph has no
cycle exactly if the one that its alias draws has none. -/
theorem acyclic_process_iff_detour :
    let s : Store := .ofContents detourContents ⟨0, 0⟩ .standard
    let u : Update := .ofText "alias kitten -> animal" .standard
    Lawful .implication s.contents.implications ∧ s.contents.implicationGraph.Acyclic ∧
      ∃ cs ms inside, u.Succeeds .anonymous s cs ms inside ∧
        (((u.process .anonymous).runOn s).2.contents.implicationGraph.Acyclic ↔
          (redrawAll (cs.map (·.command)) s.contents.implicationGraph).Acyclic) := by
  have hlawful : Lawful .implication detourContents.implications := by decide
  obtain ⟨m, hsucceeds⟩ := succeeds_detour
  have hprocess := acyclic_process_iff (.ofText "alias kitten -> animal" .standard) .anonymous
    (.ofContents detourContents ⟨0, 0⟩ .standard) hlawful acyclic_detourContents
  exact ⟨hlawful, acyclic_detourContents, _, _, m, hsucceeds, (hprocess.2 _ _ m hsucceeds).2.1⟩

/-- Names are well related and implications form no cycle where kittens are cats and cats are
animals, but there is a cycle of cats and animals once kittens stand for animals. -/
theorem not_acyclic_process :
    let s : Store := .ofContents detourContents ⟨0, 0⟩ .standard
    let u : Update := .ofText "alias kitten -> animal" .standard
    s.contents.WellRelated ∧ s.contents.implicationGraph.Acyclic ∧
      ¬ ((u.process .anonymous).runOn s).2.contents.implicationGraph.Acyclic := by
  intro s u
  refine ⟨by decide, acyclic_detourContents, fun hacyclic => ?_⟩
  let g : Graph := ⟨[("kitten", "cat"), ("cat", "animal")]⟩
  obtain ⟨m, hsucceeds⟩ := succeeds_detour
  have hdrawn : Drawn g s.begun.contents := ⟨by decide, fun _ => Iff.rfl⟩
  have hdraws := (hsucceeds.applied.drawn hdrawn).2.draws
  rw [hsucceeds.contents_process] at hacyclic
  have hthere : ("animal", "cat") ∈ _ := mem_edges_implicationGraph.2 ((hdraws _).2 (by decide))
  have hback : ("cat", "animal") ∈ _ := mem_edges_implicationGraph.2 ((hdraws _).2 (by decide))
  exact hacyclic "animal" (.step hthere (.edge hback))

end Update

end Imageboard.Bulk
