import Imageboard.Proofs.Relationship.Merging
import Mathlib.Data.List.Chain
import Mathlib.Data.String.Basic

/-!
# The cycles that are found

The search for cycles walks along edges, so where it comes back to a tag of its path, the path from that
tag on is a cycle, which is then written from its smallest tag on. A tag is left for good after all tags
that follow it; as long as no cycle has been found, these have been left before it, and so no tag that
has been left can be reached from itself. The main statement is that the search finds only cycles, none of
them twice, and finds one if there is one.
-/

namespace Imageboard.Relationship.Graph

variable {g : Graph} {a b first node : String} {path rest : List String} {found : Found}

/-- Whether an edge leads from one tag to another. -/
def Adjacent (g : Graph) (a b : String) : Prop :=
  (a, b) ∈ g.edges

/-! ## Cycles -/

/-- Whether a tag and some others are a cycle: they are distinct, and an edge leads from each of them to the
next and from the last one to the first. -/
structure IsCycle (g : Graph) (first : String) (rest : List String) : Prop where
  nodup : (first :: rest).Nodup
  closed : (first :: rest ++ [first]).IsChain g.Adjacent

/-- A cycle can be written from each of its tags on. -/
theorem IsCycle.rotated {before after : List String} (h : g.IsCycle a (before ++ b :: after)) :
    g.IsCycle b (after ++ a :: before) where
  nodup := by
    have hperm : (a :: before ++ b :: after).Perm (b :: after ++ a :: before) := List.perm_append_comm
    exact hperm.nodup_iff.1 h.nodup
  closed := by
    have hclosed : (a :: before ++ b :: (after ++ [a])).IsChain g.Adjacent := by
      simpa using h.closed
    obtain ⟨hfront, hback⟩ := List.isChain_split.1 hclosed
    have hjoined : (b :: after ++ a :: (before ++ [b])).IsChain g.Adjacent :=
      List.isChain_split.2 ⟨hback, hfront⟩
    simpa using hjoined

/-- The end of a walk can be reached from its start. -/
theorem reaches_of_isChain {l : List String} (h : (a :: l ++ [b]).IsChain g.Adjacent) :
    g.Reaches a b := by
  induction l generalizing a with
  | nil => exact .edge (List.isChain_pair.1 h)
  | cons c l ih =>
    obtain ⟨hedge, hrest⟩ := List.isChain_cons_cons.1 h
    exact .step hedge (ih hrest)

/-- A graph without cycles has none that are written down. -/
theorem Acyclic.not_isCycle (hg : g.Acyclic) : ¬ g.IsCycle first rest :=
  fun h => hg first (reaches_of_isChain h.closed)

/-- Where a tag stands once, what stands in front of it ends there. -/
theorem split_at_tag {before after : List String} (h : (before ++ a :: after).Nodup) :
    (before ++ a :: after).takeWhile (· ≠ a) = before ∧
      (before ++ a :: after).dropWhile (· ≠ a) = a :: after := by
  have hnot : ∀ n ∈ before, decide (n ≠ a) = true := by
    intro n hn
    refine decide_eq_true ?_
    rintro rfl
    exact (List.nodup_append.1 h).2.2 n hn n List.mem_cons_self rfl
  rw [List.takeWhile_append_of_pos hnot, List.dropWhile_append_of_pos hnot]
  simp

/-! ## The smallest tag of a cycle -/

/-- The first of some names in order is one of them, and none of them comes before it. -/
theorem least?_eq_some {names : List String} (h : least? names = some first) :
    first ∈ names ∧ ∀ n ∈ names, first ≤ n := by
  have hfold (ns : List String) (m : String) :
      ns.foldl (fun least n => if n < least then n else least) m ∈ m :: ns ∧
        ∀ n ∈ m :: ns, ns.foldl (fun least n => if n < least then n else least) m ≤ n := by
    induction ns generalizing m with
    | nil => simp
    | cons n ns ih =>
      obtain ⟨hmem, hle⟩ := ih (if n < m then n else m)
      rw [List.foldl_cons]
      generalize ns.foldl _ _ = least at hmem hle
      have hnew : (if n < m then n else m) ≤ m ∧ (if n < m then n else m) ≤ n := by
        split
        next hlt => exact ⟨hlt.le, le_refl n⟩
        next hge => exact ⟨le_refl m, not_lt.1 hge⟩
      have hleast := hle _ List.mem_cons_self
      refine ⟨?_, List.forall_mem_cons.2 ⟨hleast.trans hnew.1, List.forall_mem_cons.2
        ⟨hleast.trans hnew.2, fun k hk => hle k (List.mem_cons_of_mem _ hk)⟩⟩⟩
      rcases List.mem_cons.1 hmem with rfl | hmem
      · split <;> simp
      · exact List.mem_cons_of_mem _ (List.mem_cons_of_mem _ hmem)
  cases names with
  | nil => cases h
  | cons m ns =>
    obtain rfl := Option.some.inj h
    exact hfold ns m

/-- A cycle that is written from its smallest tag on. -/
structure IsLeastCycle (g : Graph) (first : String) (rest : List String) : Prop
    extends IsCycle g first rest where
  least : ∀ n ∈ rest, first < n

/-- Each cycle is written from its smallest tag on. -/
theorem IsCycle.exists_rotate_eq (h : g.IsCycle a path) :
    ∃ first rest, rotate (a :: path) = first :: rest ∧ g.IsLeastCycle first rest := by
  obtain ⟨first, hfirst⟩ : ∃ first, least? (a :: path) = some first := ⟨_, rfl⟩
  obtain ⟨hmem, hle⟩ := least?_eq_some hfirst
  have hleast {rest : List String} (hcycle : g.IsCycle first rest)
      (hsub : ∀ n ∈ rest, n ∈ a :: path) : g.IsLeastCycle first rest := by
    refine ⟨hcycle, fun n hn => lt_of_le_of_ne (hle n (hsub n hn)) ?_⟩
    rintro rfl
    exact (List.nodup_cons.1 hcycle.nodup).1 hn
  unfold rotate
  rw [hfirst]
  by_cases hsame : a = first
  · subst hsame
    exact ⟨a, path, by simp, hleast h fun n hn => List.mem_cons_of_mem _ hn⟩
  · have hpath : first ∈ path := (List.mem_cons.1 hmem).resolve_left (Ne.symm hsame)
    obtain ⟨before, after, rfl⟩ := List.append_of_mem hpath
    have htake : (a :: (before ++ first :: after)).takeWhile (· ≠ first) = a :: before :=
      (split_at_tag (List.cons_append ▸ h.nodup)).1
    have hdrop : (a :: (before ++ first :: after)).drop (a :: before).length = first :: after := by
      rw [← List.cons_append]
      exact List.drop_left
    refine ⟨first, after ++ a :: before, ?_, hleast h.rotated fun n hn => ?_⟩
    · simp only [htake, hdrop, List.cons_append]
    · simp only [List.mem_append, List.mem_cons] at hn ⊢
      tauto

/-! ## The path of the search -/

/-- What holds of the tags on the path of the search when it visits a tag: they are distinct, they have
edges, and an edge leads from each of them to the next and from the last one to the visited tag. -/
structure Trail (g : Graph) (path : List String) (node : String) : Prop where
  nodup : path.Nodup
  starts : path ⊆ g.edges.map (·.1)
  walk : (path ++ [node]).IsChain g.Adjacent

namespace Trail

/-- A search begins with an empty path. -/
theorem start (g : Graph) (node : String) : g.Trail [] node where
  nodup := List.nodup_nil
  starts := List.nil_subset _
  walk := List.isChain_singleton _

/-- A tag that is new is put on the path before its successors are visited. -/
theorem extend {next : String} (h : g.Trail path node) (hnew : node ∉ path)
    (hedge : g.Adjacent node next) : g.Trail (path ++ [node]) next where
  nodup := List.nodup_append.2 ⟨h.nodup, List.nodup_singleton _, fun n hn m hm => by
    rintro rfl
    exact hnew (List.mem_singleton.1 hm ▸ hn)⟩
  starts := List.append_subset.2 ⟨h.starts, fun n hn => by
    rw [List.mem_singleton.1 hn]
    exact List.mem_map_of_mem (f := (·.1)) hedge⟩
  walk := by
    rw [List.append_assoc]
    exact List.isChain_split.2 ⟨h.walk, List.isChain_pair.2 hedge⟩

/-- A path is no longer than there are edges. -/
theorem length_le (h : g.Trail path node) : path.length ≤ g.edges.length := by
  have hle := (List.subperm_of_subset h.nodup h.starts).length_le
  rwa [List.length_map] at hle

/-- Where the search comes back to a tag of its path, the path from that tag on is a cycle. -/
theorem exists_isCycle (h : g.Trail path node) (hback : node ∈ path) :
    ∃ rest, path.dropWhile (· ≠ node) = node :: rest ∧ g.IsCycle node rest := by
  obtain ⟨before, rest, rfl⟩ := List.append_of_mem hback
  refine ⟨rest, (split_at_tag h.nodup).2, (List.nodup_append.1 h.nodup).2.1, ?_⟩
  have hwalk : (before ++ node :: (rest ++ [node])).IsChain g.Adjacent := by
    simpa using h.walk
  exact (List.isChain_split.1 hwalk).2

end Trail

/-! ## The tags left for good -/

/-- Whether each of some tags, the one left last first, is followed only by tags that were left before
it. -/
def Settled (g : Graph) : List String → Prop
  | [] => True
  | node :: done => (∀ next, g.Adjacent node next → next ∈ done) ∧ g.Settled done

namespace Settled

variable {done : List String}

/-- The next tag after one that has been left has been left too. -/
theorem next_mem (h : g.Settled done) (ha : a ∈ done) (hedge : g.Adjacent a b) : b ∈ done := by
  induction done with
  | nil => exact absurd ha List.not_mem_nil
  | cons node done ih =>
    rcases List.mem_cons.1 ha with rfl | ha
    · exact List.mem_cons_of_mem _ (h.1 b hedge)
    · exact List.mem_cons_of_mem _ (ih h.2 ha)

/-- What can be reached from a tag that has been left has been left too. -/
theorem mem_of_reaches (h : g.Settled done) (hab : g.Reaches a b) (ha : a ∈ done) : b ∈ done := by
  induction hab with
  | edge hedge => exact h.next_mem ha hedge
  | step hedge _ ih => exact ih (h.next_mem ha hedge)

/-- A tag that has been left cannot be reached from itself. -/
theorem not_reaches (h : g.Settled done) (ha : a ∈ done) : ¬ g.Reaches a a := by
  induction done with
  | nil => exact absurd ha List.not_mem_nil
  | cons node done ih =>
    rcases List.mem_cons.1 ha with rfl | ha
    · -- All that can be reached from the tag left last was left before it.
      intro hloop
      have hbefore : a ∈ done := by
        cases hloop with
        | edge hedge => exact h.1 a hedge
        | step hedge hrest => exact h.2.mem_of_reaches hrest (h.1 _ hedge)
      exact ih h.2 hbefore hloop
    · exact ih h.2 ha

end Settled

/-! ## The search -/

/-- What holds of what has been found between two visits. -/
structure Searching (g : Graph) (found : Found) : Prop where
  nodup : found.cycles.Nodup
  least : ∀ cycle ∈ found.cycles, ∃ first rest, cycle = first :: rest ∧ g.IsLeastCycle first rest
  settled : found.cycles = [] → g.Settled found.done

/-- Nothing that was found is lost. -/
structure Found.Grows (before after : Found) : Prop where
  done : before.done ⊆ after.done
  cycles : before.cycles ⊆ after.cycles

namespace Found.Grows

variable {before between after : Found}

/-- Nothing is lost where nothing happens. -/
theorem refl (found : Found) : found.Grows found :=
  ⟨List.Subset.refl _, List.Subset.refl _⟩

/-- What is not lost in two steps is not lost. -/
theorem trans (hfirst : before.Grows between) (hsecond : between.Grows after) : before.Grows after :=
  ⟨List.Subset.trans hfirst.done hsecond.done, List.Subset.trans hfirst.cycles hsecond.cycles⟩

/-- As long as no cycle is found, none was found before. -/
theorem cycles_eq_nil (h : before.Grows after) (hnone : after.cycles = []) : before.cycles = [] :=
  List.subset_nil.1 (hnone ▸ h.cycles)

end Found.Grows

/-- What a visit of some tags does: nothing is lost, and as long as no cycle is found, these tags are left
for good. -/
structure Visited (g : Graph) (nodes : List String) (before after : Found) : Prop where
  searching : g.Searching after
  grows : before.Grows after
  left : after.cycles = [] → nodes ⊆ after.done

/-- Tags that are visited one after the other are all visited. -/
theorem Visited.foldl {step : Found → String → Found} {nodes : List String}
    (hstep : ∀ n ∈ nodes, ∀ found, g.Searching found → g.Visited [n] found (step found n))
    (h : g.Searching found) : g.Visited nodes found (nodes.foldl step found) := by
  induction nodes generalizing found with
  | nil => exact ⟨h, .refl found, fun _ => List.nil_subset _⟩
  | cons n nodes ih =>
    have hfirst := hstep n List.mem_cons_self found h
    have hrest := ih (fun m hm => hstep m (List.mem_cons_of_mem _ hm)) hfirst.searching
    refine ⟨hrest.searching, hfirst.grows.trans hrest.grows, fun hnone => ?_⟩
    have hleft : n ∈ (step found n).done :=
      hfirst.left (hrest.grows.cycles_eq_nil hnone) List.mem_cons_self
    exact List.cons_subset.2 ⟨hrest.grows.done hleft, hrest.left hnone⟩

/-- A cycle that is found is put behind those found before, unless it is one of them. -/
theorem Searching.visited_of_back (h : g.Searching found) (htrail : g.Trail path node)
    (hback : node ∈ path) (fuel : Nat) : g.Visited [node] found (g.visit (fuel + 1) path node found) := by
  obtain ⟨rest, hrest, hcycle⟩ := htrail.exists_isCycle hback
  obtain ⟨first, others, hrotate, hleast⟩ := hcycle.exists_rotate_eq
  rw [visit, if_pos (List.contains_iff_mem.2 hback)]
  simp only [hrest, hrotate]
  split
  next hold =>
    have hmem := List.contains_iff_mem.1 hold
    exact ⟨h, .refl found, fun hnone => absurd (hnone ▸ hmem) List.not_mem_nil⟩
  next hnew =>
    have hnot : first :: others ∉ found.cycles := fun hmem => hnew (List.contains_iff_mem.2 hmem)
    refine ⟨⟨?_, ?_, fun hnone => ?_⟩, ⟨List.Subset.refl _, List.subset_append_left _ _⟩, fun hnone => ?_⟩
    · exact List.nodup_append.2 ⟨h.nodup, List.nodup_singleton _, fun c hc d hd => by
        rintro rfl
        exact hnot (List.mem_singleton.1 hd ▸ hc)⟩
    · intro cycle hc
      rcases List.mem_append.1 hc with hc | hc
      · exact h.least cycle hc
      · exact ⟨first, others, List.mem_singleton.1 hc, hleast⟩
    all_goals
      have hlong := congrArg List.length hnone
      simp at hlong

/-- A visit leaves its tag for good, unless a cycle has been found; there is fuel for it as long as there
is some for each edge that is not on the path. -/
theorem Searching.visited (h : g.Searching found) (htrail : g.Trail path node) {fuel : Nat}
    (hfuel : g.edges.length + 2 ≤ fuel + path.length) :
    g.Visited [node] found (g.visit fuel path node found) := by
  induction fuel generalizing found path node with
  | zero =>
    have hle := htrail.length_le
    omega
  | succ fuel ih =>
    by_cases hback : node ∈ path
    · exact h.visited_of_back htrail hback fuel
    rw [visit, if_neg fun hc => hback (List.contains_iff_mem.1 hc)]
    split
    next hdone =>
      exact ⟨h, .refl found, fun _ => List.cons_subset.2 ⟨List.contains_iff_mem.1 hdone, List.nil_subset _⟩⟩
    next =>
      have hall : g.Visited (g.successors node) found ((g.successors node).foldl
          (fun found next => g.visit fuel (path ++ [node]) next found) found) :=
        .foldl (fun next hnext found hfound =>
          ih hfound (htrail.extend hback (mem_successors.1 hnext)) (by simp; omega)) h
      generalize (g.successors node).foldl _ _ = after at hall
      refine ⟨⟨hall.searching.nodup, hall.searching.least, fun hnone => ?_⟩,
        ⟨fun n hn => List.mem_cons_of_mem _ (hall.grows.done hn), hall.grows.cycles⟩,
        fun _ => List.cons_subset.2 ⟨List.mem_cons_self, List.nil_subset _⟩⟩
      exact ⟨fun next hedge => hall.left hnone (mem_successors.2 hedge), hall.searching.settled hnone⟩

/-- The search from all tags that have edges visits them all. -/
theorem visited_sources (g : Graph) : g.Visited g.sources ⟨[], []⟩ (g.sources.foldl
    (fun found node => g.visit (g.edges.length + 2) [] node found) ⟨[], []⟩) :=
  .foldl (fun node _ _ hfound => hfound.visited (.start g node) (by simp))
    ⟨List.nodup_nil, fun _ hc => absurd hc List.not_mem_nil, fun _ => trivial⟩

/-- The tags that have edges. -/
theorem mem_sources : a ∈ g.sources ↔ ∃ b, g.Adjacent a b := by
  rw [sources, (List.mergeSort_perm _ _).mem_iff, Query.mem_distinct]
  simp [Adjacent]

/-- A tag that can be reached from itself has an edge. -/
theorem mem_sources_of_reaches (hab : g.Reaches a b) : a ∈ g.sources := by
  cases hab with
  | edge hedge => exact mem_sources.2 ⟨_, hedge⟩
  | step hedge _ => exact mem_sources.2 ⟨_, hedge⟩

/-- Each list that the search finds is a cycle written from its smallest tag on, no list is found twice,
and none is found exactly if no tag can be reached from itself. -/
theorem cycles_least_and_eq_nil_iff_acyclic (g : Graph) :
    (∀ cycle ∈ g.cycles, ∃ first rest, cycle = first :: rest ∧ g.IsLeastCycle first rest) ∧
      g.cycles.Nodup ∧ (g.cycles = [] ↔ g.Acyclic) := by
  have hvisited := g.visited_sources
  unfold cycles
  generalize g.sources.foldl _ _ = found at hvisited
  have hperm := List.mergeSort_perm found.cycles listLe
  obtain ⟨hnodup, hleast, hsettled⟩ := hvisited.searching
  refine ⟨fun cycle hc => hleast cycle (hperm.mem_iff.1 hc), hperm.nodup_iff.2 hnodup, ?_, ?_⟩
  · intro hempty n hloop
    have hnone : found.cycles = [] := List.perm_nil.1 (hempty ▸ hperm.symm)
    exact (hsettled hnone).not_reaches (hvisited.left hnone (mem_sources_of_reaches hloop)) hloop
  · intro hg
    refine List.eq_nil_iff_forall_not_mem.2 fun cycle hc => ?_
    obtain ⟨first, rest, -, hcycle⟩ := hleast cycle (hperm.mem_iff.1 hc)
    exact hg.not_isCycle hcycle.toIsCycle

end Imageboard.Relationship.Graph
