import Imageboard.Proofs.Relationship.Moving
import Imageboard.Proofs.Relationship.Reaching

/-!
# Graphs with two tags made one

A graph without cycles stays so when an edge is added that leads to no tag from which its start can
be reached. When two tags are made one and the edges between them are dropped, a cycle appears
exactly if a path of two edges or more led from one of them to the other.
-/

namespace Imageboard.Relationship.Graph

open Store (renamed renamedPair)

variable {g : Graph} {a b p q x y : String}

/-- No tag can be reached from itself. -/
def Acyclic (g : Graph) : Prop :=
  ∀ n, ¬ g.Reaches n n

/-- A path of two edges or more leads from one tag to another. -/
def Detour (g : Graph) (a b : String) : Prop :=
  ∃ m, g.Reaches a m ∧ g.Reaches m b

/-- The graph with an edge more. -/
def insert (g : Graph) (a b : String) : Graph :=
  ⟨(a, b) :: g.edges⟩

/-- The graph without an edge. -/
def delete (g : Graph) (a b : String) : Graph :=
  ⟨g.edges.filter (· ≠ (a, b))⟩

/-- The graph with one tag put for another, without edges from a tag to itself. -/
def merge (g : Graph) (a b : String) : Graph :=
  ⟨(g.edges.map (renamedPair a b)).filter fun e => e.1 ≠ e.2⟩

/-- With fewer edges there are no more cycles. -/
theorem Acyclic.mono {h : Graph} (hg : g.Acyclic) (hsub : h.edges ⊆ g.edges) : h.Acyclic :=
  fun n hn => hg n (hn.mono hsub)

/-- Graphs with the same edges have cycles alike. -/
theorem acyclic_congr {h : Graph} (hsame : ∀ e, e ∈ h.edges ↔ e ∈ g.edges) :
    h.Acyclic ↔ g.Acyclic :=
  ⟨fun hh => hh.mono fun e he => (hsame e).2 he, fun hg => hg.mono fun e he => (hsame e).1 he⟩

/-- Edges that all go up lead to no cycle. -/
theorem acyclic_of_lt (rank : String → Nat) (h : ∀ e ∈ g.edges, rank e.1 < rank e.2) : g.Acyclic := by
  have hup {u v : String} (huv : g.Reaches u v) : rank u < rank v := by
    induction huv with
    | edge hedge => exact h _ hedge
    | step hedge _ ih => exact Nat.lt_trans (h _ hedge) ih
  exact fun n hn => Nat.lt_irrefl _ (hup hn)

/-! ## An edge more or less -/

/-- The edges of the graph with an edge more. -/
theorem mem_edges_insert {e : String × String} :
    e ∈ (g.insert a b).edges ↔ e ∈ g.edges ∨ e = (a, b) :=
  List.mem_cons.trans or_comm

/-- The edges of the graph without an edge. -/
theorem mem_edges_delete {e : String × String} :
    e ∈ (g.delete a b).edges ↔ e ∈ g.edges ∧ e ≠ (a, b) := by
  rw [delete, List.mem_filter, decide_eq_true_iff]

/-- A path in the graph with an edge more may go over that edge. -/
theorem reaches_of_insert (h : (g.insert a b).Reaches x y) :
    g.Reaches x y ∨ (x = a ∨ g.Reaches x a) ∧ (y = b ∨ g.Reaches b y) := by
  induction h with
  | edge hedge =>
    rcases List.mem_cons.1 hedge with heq | hold
    · obtain ⟨rfl, rfl⟩ := Prod.mk.inj heq
      exact Or.inr ⟨Or.inl rfl, Or.inl rfl⟩
    · exact Or.inl (.edge hold)
  | step hedge _ ih =>
    rcases List.mem_cons.1 hedge with heq | hold
    · obtain ⟨rfl, rfl⟩ := Prod.mk.inj heq
      exact Or.inr ⟨Or.inl rfl, ih.elim Or.inr And.right⟩
    · refine ih.imp (Reaches.step hold) fun hover => ⟨Or.inr ?_, hover.2⟩
      rcases hover.1 with rfl | hfirst
      · exact .edge hold
      · exact .step hold hfirst

/-- An edge to a tag from which its start cannot be reached closes no cycle. -/
theorem Acyclic.insert (hg : g.Acyclic) (hne : a ≠ b) (hback : ¬ g.Reaches b a) :
    (g.insert a b).Acyclic := by
  intro n hn
  rcases reaches_of_insert hn with hn | ⟨rfl | hfirst, hsecond⟩
  · exact hg n hn
  · rcases hsecond with rfl | hsecond
    · exact hne rfl
    · exact hback hsecond
  · rcases hsecond with rfl | hsecond
    · exact hback hfirst
    · exact hback (hsecond.trans hfirst)

/-! ## Two tags made one -/

/-- The edges after two tags were made one. -/
theorem mem_edges_merge {e : String × String} :
    e ∈ (g.merge a b).edges ↔ e.1 ≠ e.2 ∧ ∃ d ∈ g.edges, renamedPair a b d = e := by
  rw [merge, List.mem_filter, List.mem_map, decide_eq_true_iff, and_comm]

/-- Two tags that become one are the same or become the new one. -/
theorem eq_or_renamed_eq (h : renamed a b x = renamed a b y) : x = y ∨ renamed a b x = b := by
  unfold renamed at h ⊢
  split at h
  next hx => exact Or.inr (if_pos hx)
  next hx =>
    split at h
    next hy => exact Or.inr ((if_neg hx).trans h)
    next hy => exact Or.inl h

/-- A tag that becomes the new one is one of the two. -/
theorem eq_or_eq_of_renamed (h : renamed a b x = b) : x = a ∨ x = b := by
  unfold renamed at h
  split at h
  next hx => exact Or.inl hx
  next => exact Or.inr h

/-- A path stays a path when two tags are made one, unless its ends become one. -/
theorem reaches_merge (h : g.Reaches x y) :
    renamed a b x = renamed a b y ∨ (g.merge a b).Reaches (renamed a b x) (renamed a b y) := by
  have hedge {u v : String} (huv : (u, v) ∈ g.edges) : renamed a b u = renamed a b v ∨
      (renamed a b u, renamed a b v) ∈ (g.merge a b).edges := by
    by_cases heq : renamed a b u = renamed a b v
    · exact Or.inl heq
    · exact Or.inr (mem_edges_merge.2 ⟨heq, (u, v), huv, rfl⟩)
  induction h with
  | edge huv => exact (hedge huv).imp_right .edge
  | step huv _ ih =>
    rcases hedge huv with heq | hfirst
    · rwa [heq]
    · rcases ih with heq | hrest
      · exact Or.inr (heq ▸ .edge hfirst)
      · exact Or.inr (.step hfirst hrest)

/-- A detour between two tags that are made one becomes a cycle. -/
theorem not_acyclic_merge (hg : g.Acyclic) (hsame : renamed a b x = renamed a b y)
    (hdetour : g.Detour x y) : ¬ (g.merge a b).Acyclic := by
  obtain ⟨m, hfirst, hsecond⟩ := hdetour
  have hxm : x ≠ m := by
    rintro rfl
    exact hg x hfirst
  have hmy : m ≠ y := by
    rintro rfl
    exact hg m hsecond
  have hxy : x ≠ y := by
    rintro rfl
    exact hg x (hfirst.trans hsecond)
  have hx : renamed a b x = b := (eq_or_renamed_eq hsame).resolve_left hxy
  -- Of the three tags only two can become the same one.
  have hm : renamed a b x ≠ renamed a b m := by
    intro heq
    have hx' := eq_or_eq_of_renamed hx
    have hm' := eq_or_eq_of_renamed (heq.symm.trans hx)
    have hy' := eq_or_eq_of_renamed (hsame.symm.trans hx)
    grind
  intro hmerged
  have hthere := (reaches_merge hfirst).resolve_left hm
  have hback := (reaches_merge hsecond).resolve_left fun heq => hm (hsame.trans heq.symm)
  exact hmerged _ (hsame ▸ hthere.trans hback)

/-- The graph without the edges between tags that become one. -/
def strip (g : Graph) (a b : String) : Graph :=
  ⟨g.edges.filter fun e => renamed a b e.1 ≠ renamed a b e.2⟩

/-- All edges that are kept were there. -/
theorem strip_subset : (g.strip a b).edges ⊆ g.edges :=
  List.filter_sublist.subset

/-- Without the edges between them, a path between tags that become one is a detour. -/
theorem detour_of_strip (h : (g.strip a b).Reaches x y) (hsame : renamed a b x = renamed a b y) :
    g.Detour x y := by
  cases h with
  | edge hedge => exact absurd hsame (by simpa using (List.mem_filter.1 hedge).2)
  | step hedge hrest => exact ⟨_, .edge (strip_subset hedge), hrest.mono strip_subset⟩

/-- A path after two tags were made one was a path before, or two paths of which one goes on where
the other ends but for the two tags, or there was a detour between tags that become one. -/
theorem reaches_of_merge (h : (g.merge a b).Reaches p q) :
    (∃ x y, renamed a b x = renamed a b y ∧ g.Detour x y) ∨
    (∃ x y, renamed a b x = p ∧ renamed a b y = q ∧ (g.strip a b).Reaches x y) ∨
    (∃ x e f y, renamed a b x = p ∧ renamed a b y = q ∧ renamed a b e = renamed a b f ∧
      (g.strip a b).Reaches x e ∧ (g.strip a b).Reaches f y) := by
  have hlift {u v : String} (huv : (u, v) ∈ (g.merge a b).edges) :
      ∃ x y, renamed a b x = u ∧ renamed a b y = v ∧ (x, y) ∈ (g.strip a b).edges := by
    obtain ⟨hne, ⟨x, y⟩, hedge, heq⟩ := mem_edges_merge.1 huv
    obtain ⟨rfl, rfl⟩ := Prod.mk.inj heq
    exact ⟨x, y, rfl, rfl, List.mem_filter.2 ⟨hedge, by simpa using hne⟩⟩
  induction h with
  | edge hedge =>
    obtain ⟨x, y, hx, hy, hxy⟩ := hlift hedge
    exact Or.inr (Or.inl ⟨x, y, hx, hy, .edge hxy⟩)
  | step hedge _ ih =>
    obtain ⟨u, v, hu, hv, huv⟩ := hlift hedge
    rcases ih with hdetour | ⟨x, y, hx, hy, hxy⟩ | ⟨x, e, f, y, hx, hy, hef, hxe, hfy⟩
    · exact Or.inl hdetour
    · exact Or.inr (Or.inr ⟨u, v, x, y, hu, hy, hv.trans hx.symm, .edge huv, hxy⟩)
    · rcases eq_or_renamed_eq (hv.trans hx.symm) with rfl | hnew
      · exact Or.inr (Or.inr ⟨u, e, f, y, hu, hy, hef, .step huv hxe, hfy⟩)
      · rcases eq_or_renamed_eq hef with rfl | hnew'
        · exact Or.inr (Or.inr ⟨u, v, x, y, hu, hy, hv.trans hx.symm, .edge huv, hxe.trans hfy⟩)
        · have hsame : renamed a b x = renamed a b e := by
            rw [hx, ← hv, hnew, hnew']
          exact Or.inl ⟨x, e, hsame, detour_of_strip hxe hsame⟩

/-- A cycle after two tags were made one was a detour between tags that become one. -/
theorem exists_detour_of_merge (h : (g.merge a b).Reaches p p) :
    ∃ x y, renamed a b x = renamed a b y ∧ g.Detour x y := by
  rcases reaches_of_merge h with hdetour | ⟨x, y, hx, hy, hxy⟩ | ⟨x, e, f, y, hx, hy, hef, hxe, hfy⟩
  · exact hdetour
  · have hsame := hx.trans hy.symm
    exact ⟨x, y, hsame, detour_of_strip hxy hsame⟩
  · have hxe' := hxe.mono strip_subset
    have hfy' := hfy.mono strip_subset
    rcases eq_or_renamed_eq hef with rfl | hnew
    · exact ⟨x, y, hx.trans hy.symm, e, hxe', hfy'⟩
    · rcases eq_or_renamed_eq (hx.trans hy.symm) with rfl | hnew'
      · exact ⟨f, e, hef.symm, x, hfy', hxe'⟩
      · have hsame := hnew'.trans hnew.symm
        exact ⟨x, e, hsame, detour_of_strip hxe hsame⟩

/-- Making two tags of a graph without cycles one leads to no cycle exactly if there is no detour
between them in either direction. -/
theorem Acyclic.merge_iff (hg : g.Acyclic) :
    (g.merge a b).Acyclic ↔ ¬ g.Detour a b ∧ ¬ g.Detour b a := by
  have hone : renamed a b a = renamed a b b := by simp [renamed]
  constructor
  · exact fun hmerged => ⟨fun hdetour => not_acyclic_merge hg hone hdetour hmerged,
      fun hdetour => not_acyclic_merge hg hone.symm hdetour hmerged⟩
  · rintro ⟨hthere, hback⟩ n hn
    obtain ⟨x, y, hsame, hdetour⟩ := exists_detour_of_merge hn
    have hxy : x ≠ y := by
      rintro rfl
      obtain ⟨m, hfirst, hsecond⟩ := hdetour
      exact hg x (hfirst.trans hsecond)
    have hx := (eq_or_renamed_eq hsame).resolve_left hxy
    rcases eq_or_eq_of_renamed hx with rfl | rfl <;>
      rcases eq_or_eq_of_renamed (hsame.symm.trans hx) with rfl | rfl
    · exact hxy rfl
    · exact hthere hdetour
    · exact hback hdetour
    · exact hxy rfl

end Imageboard.Relationship.Graph
