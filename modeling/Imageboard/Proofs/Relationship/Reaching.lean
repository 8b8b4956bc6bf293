import Imageboard.Proofs.Query.Distinct
import Imageboard.Relationship.Graph
import Mathlib.Data.List.Nodup
import Mathlib.Data.List.Perm.Subperm

/-!
# What a tag implies

The search for what a tag implies goes round by round, from the tags reached last to those not
reached yet. It has enough rounds, since each finds a new end of an edge, and when a round finds
nothing, all that can be reached has been reached. So the search is exact.
-/

namespace Imageboard

namespace Relationship.Graph

variable {g h : Graph} {a b c name : String}

/-- The successors of a tag are the ends of its edges. -/
theorem mem_successors : b ∈ g.successors a ↔ (a, b) ∈ g.edges := by
  rw [successors, (List.mergeSort_perm _ _).mem_iff, Query.mem_distinct]
  simp

/-- What can be reached from what can be reached can be reached. -/
theorem Reaches.trans (hab : g.Reaches a b) (hbc : g.Reaches b c) : g.Reaches a c := by
  induction hab with
  | edge hedge => exact .step hedge hbc
  | step hedge _ ih => exact .step hedge (ih hbc)

/-- What can be reached is the end of an edge. -/
theorem Reaches.exists_edge (hab : g.Reaches a b) : ∃ x, (x, b) ∈ g.edges := by
  induction hab with
  | edge hedge => exact ⟨_, hedge⟩
  | step _ _ ih => exact ih

/-- More edges reach more. -/
theorem Reaches.mono (hsub : g.edges ⊆ h.edges) (hab : g.Reaches a b) : h.Reaches a b := by
  induction hab with
  | edge hedge => exact .edge (hsub hedge)
  | step hedge _ ih => exact .step (hsub hedge) ih

/-- From a set that no edge leaves, nothing outside is reached. -/
theorem Reaches.mem_of_closed {reached : List String} (hab : g.Reaches a b)
    (hclosed : ∀ n, n = name ∨ n ∈ reached → ∀ m, (n, m) ∈ g.edges → m ∈ reached)
    (ha : a = name ∨ a ∈ reached) : b ∈ reached := by
  induction hab with
  | edge hedge => exact hclosed _ ha _ hedge
  | step hedge _ ih => exact ih (Or.inr (hclosed _ ha _ hedge))

/-- What holds between two rounds of the search for what a tag implies. -/
structure Spreading (g : Graph) (name : String) (reached frontier : List String) : Prop where
  nodup : reached.Nodup
  ends : reached ⊆ g.edges.map (·.2)
  sound : ∀ n ∈ reached, g.Reaches name n
  front : ∀ n ∈ frontier, n = name ∨ n ∈ reached
  closed : ∀ n, n = name ∨ n ∈ reached → n ∉ frontier → ∀ m, (n, m) ∈ g.edges → m ∈ reached

/-- The tags that a round reaches for the first time. -/
def fresh (g : Graph) (reached frontier : List String) : List String :=
  (Query.distinct (frontier.flatMap g.successors)).filter fun n => !reached.contains n

/-- A round reaches the ends of edges from the tags reached last. -/
theorem mem_fresh {reached frontier : List String} {m : String} :
    m ∈ g.fresh reached frontier ↔ (∃ n ∈ frontier, (n, m) ∈ g.edges) ∧ m ∉ reached := by
  simp [fresh, Query.mem_distinct, mem_successors]

namespace Spreading

variable {reached frontier : List String}

/-- Before the first round only the tag itself has been reached. -/
theorem start (g : Graph) (name : String) : Spreading g name [] [name] where
  nodup := List.nodup_nil
  ends := List.nil_subset _
  sound _ hn := absurd hn List.not_mem_nil
  front _ hn := Or.inl (List.mem_singleton.1 hn)
  closed _ hn hnot := absurd (List.mem_singleton.2 (hn.resolve_right List.not_mem_nil)) hnot

/-- No more tags are reached than there are edges. -/
theorem length_le (hs : Spreading g name reached frontier) : reached.length ≤ g.edges.length := by
  have hle := (List.subperm_of_subset hs.nodup hs.ends).length_le
  rwa [List.length_map] at hle

/-- A round reaches what it can from the tags reached last. -/
theorem next (hs : Spreading g name reached frontier) :
    Spreading g name (reached ++ g.fresh reached frontier) (g.fresh reached frontier) where
  nodup := by
    refine List.nodup_append.2 ⟨hs.nodup, (Query.nodup_distinct _).filter _, ?_⟩
    rintro n hn m hm rfl
    exact (mem_fresh.1 hm).2 hn
  ends := by
    refine List.append_subset.2 ⟨hs.ends, fun m hm => ?_⟩
    obtain ⟨⟨n, -, hedge⟩, -⟩ := mem_fresh.1 hm
    exact List.mem_map_of_mem (f := (·.2)) hedge
  sound m hm := by
    rcases List.mem_append.1 hm with hm | hm
    · exact hs.sound m hm
    · obtain ⟨⟨n, hn, hedge⟩, -⟩ := mem_fresh.1 hm
      rcases hs.front n hn with rfl | hn
      · exact .edge hedge
      · exact (hs.sound n hn).trans (.edge hedge)
  front n hn := Or.inr (List.mem_append_right _ hn)
  closed n hn hnot m hedge := by
    have hold : n = name ∨ n ∈ reached := by
      rcases hn with hn | hn
      · exact Or.inl hn
      · exact Or.inr ((List.mem_append.1 hn).resolve_right hnot)
    by_cases hm : m ∈ reached
    · exact List.mem_append_left _ hm
    · by_cases hfront : n ∈ frontier
      · exact List.mem_append_right _ (mem_fresh.2 ⟨⟨n, hfront, hedge⟩, hm⟩)
      · exact absurd (hs.closed n hold hfront m hedge) hm

/-- When a round reaches nothing new, all that can be reached has been reached. -/
theorem mem_iff (hs : Spreading g name reached frontier) (hdone : g.fresh reached frontier = [])
    {n : String} : n ∈ reached ↔ g.Reaches name n := by
  refine ⟨hs.sound n, fun hreach => hreach.mem_of_closed (fun k hk m hedge => ?_) (Or.inl rfl)⟩
  by_contra hm
  by_cases hfront : k ∈ frontier
  · have hfresh := mem_fresh.2 ⟨⟨k, hfront, hedge⟩, hm⟩
    rw [hdone] at hfresh
    exact List.not_mem_nil hfresh
  · exact hm (hs.closed k hk hfront m hedge)

/-- With enough rounds, the search reaches what can be reached. -/
theorem mem_spread (hs : Spreading g name reached frontier) {fuel : Nat}
    (hfuel : g.edges.length < fuel + reached.length) {n : String} :
    n ∈ g.spread fuel reached frontier ↔ g.Reaches name n := by
  induction fuel generalizing reached frontier with
  | zero =>
    have hle := hs.length_le
    omega
  | succ fuel ih =>
    rw [spread]
    split
    next hdone => exact hs.mem_iff hdone
    next hfresh =>
      have hpos : 0 < (g.fresh reached frontier).length := List.length_pos_of_ne_nil hfresh
      have hmore : g.edges.length < fuel + (reached ++ g.fresh reached frontier).length := by
        rw [List.length_append]
        omega
      exact ih hs.next hmore

/-- However many rounds there are, the same holds after them as between them. -/
theorem exists_spread (hs : Spreading g name reached frontier) (fuel : Nat) :
    ∃ last, Spreading g name (g.spread fuel reached frontier) last := by
  induction fuel generalizing reached frontier with
  | zero => exact ⟨frontier, hs⟩
  | succ fuel ih =>
    rw [spread]
    split
    · exact ⟨frontier, hs⟩
    · exact ih hs.next

end Spreading

/-- A tag implies no more tags than there are edges. -/
theorem length_implied_le (g : Graph) (name : String) :
    (g.implied name).length ≤ g.edges.length := by
  obtain ⟨last, hlast⟩ := (Spreading.start g name).exists_spread (g.edges.length + 1)
  rw [implied, List.length_mergeSort]
  exact Nat.le_trans (List.length_filter_le _ _) hlast.length_le

/-- No tag is listed twice among those that a tag implies. -/
theorem nodup_implied (g : Graph) (name : String) : (g.implied name).Nodup := by
  obtain ⟨last, hlast⟩ := (Spreading.start g name).exists_spread (g.edges.length + 1)
  rw [implied, (List.mergeSort_perm _ _).nodup_iff]
  exact hlast.nodup.filter _

/-- A tag implies exactly the other tags that can be reached from it. -/
theorem mem_implied {n : String} : n ∈ g.implied name ↔ n ≠ name ∧ g.Reaches name n := by
  have hfuel : g.edges.length < g.edges.length + 1 + ([] : List String).length := by simp
  rw [implied, (List.mergeSort_perm _ _).mem_iff, List.mem_filter,
    (Spreading.start g name).mem_spread hfuel, decide_eq_true_iff, and_comm]

end Relationship.Graph

end Imageboard
