import Imageboard.Proofs.Relationship.Reaching
import Mathlib.Data.List.Sort
import Mathlib.Logic.Function.Iterate

/-!
# Reaching by a queue

What a tag implies is also found with a queue of names. The name in front is taken off, and if it has not
been seen before, the names after it are put at the back. So the queue may hold a name many times and may
grow, but each name brings its edges only once. Counting these edges beside the names that wait shows that
the queue runs empty, and then all that can be reached has been seen.
-/

namespace Imageboard.Relationship.Graph

/-- The names that a search has seen and those that wait in its queue, the next one first. -/
structure Queue where
  seen : List String
  waiting : List String

variable {g : Graph} {name : String}

namespace Queue

/-- The queue before the first name is taken off. -/
def start (g : Graph) (name : String) : Queue :=
  ⟨[], g.successors name⟩

/-- Takes the name in front off the queue, and puts the names after it at the back unless it has been seen
before. -/
def next (g : Graph) : Queue → Queue
  | ⟨seen, []⟩ => ⟨seen, []⟩
  | ⟨seen, first :: waiting⟩ =>
    if first ∈ seen then ⟨seen, waiting⟩ else ⟨first :: seen, waiting ++ g.successors first⟩

/-- The most names that can still be taken off: those that wait, and one for each edge from a name that
has not been seen. -/
def pending (g : Graph) (q : Queue) : Nat :=
  q.waiting.length + g.edges.countP fun e => e.1 ∉ q.seen

/-- A name has no more successors than edges. -/
theorem length_successors_le (g : Graph) (name : String) :
    (g.successors name).length ≤ g.edges.countP fun e => e.1 = name := by
  have hle : (Query.distinct ((g.edges.filter (·.1 = name)).map (·.2))).length ≤
      ((g.edges.filter (·.1 = name)).map (·.2)).length := (Query.firstOfEach_sublist [] _).length_le
  rw [List.length_map, ← List.countP_eq_length_filter] at hle
  rw [successors, List.length_mergeSort]
  exact hle

/-- The edges of a name that is seen for the first time are no longer counted. -/
theorem countP_cons_seen {seen : List String} (hnew : name ∉ seen) (edges : List (String × String)) :
    (edges.countP fun e => e.1 ∉ name :: seen) + (edges.countP fun e => e.1 = name) =
      edges.countP fun e => e.1 ∉ seen := by
  induction edges with
  | nil => rfl
  | cons e edges ih =>
    simp only [List.countP_cons, ← ih]
    by_cases he : e.1 = name
    · simp [he, hnew]
      omega
    · simp [he]
      omega

/-- Each name that is taken off brings the end of the search nearer. -/
theorem pending_next_lt {q : Queue} (hwaits : q.waiting ≠ []) :
    (q.next g).pending g < q.pending g := by
  obtain ⟨seen, waiting⟩ := q
  cases waiting with
  | nil => exact absurd rfl hwaits
  | cons first waiting =>
    rw [next]
    split
    next hold =>
      simp only [pending, List.length_cons]
      omega
    next hnew =>
      have hsuccessors := length_successors_le g first
      have hedges := countP_cons_seen hnew g.edges
      simp only [pending, List.length_cons, List.length_append]
      omega

/-- The queue runs empty, after no more steps than names can be taken off. -/
theorem exists_iterate_next (g : Graph) (q : Queue) :
    ∃ k ≤ q.pending g, ∃ seen, (next g)^[k] q = ⟨seen, []⟩ := by
  induction hpending : q.pending g using Nat.strongRecOn generalizing q with
  | _ n ih =>
    by_cases hwaits : q.waiting = []
    · exact ⟨0, Nat.zero_le _, q.seen, by rw [Function.iterate_zero_apply, ← hwaits]⟩
    · have hless : (q.next g).pending g < n := hpending ▸ pending_next_lt hwaits
      obtain ⟨k, hk, seen, hseen⟩ := ih _ hless (q.next g) rfl
      exact ⟨k + 1, Nat.lt_of_le_of_lt hk hless, seen, by rwa [Function.iterate_succ_apply]⟩

/-- Before the first step no more names can be taken off than two for each edge. -/
theorem pending_start_le (g : Graph) (name : String) : (start g name).pending g ≤ 2 * g.edges.length := by
  have hwaiting : (g.successors name).length ≤ g.edges.length :=
    Nat.le_trans (length_successors_le g name) List.countP_le_length
  have hpending : (start g name).pending g ≤ (g.successors name).length + g.edges.length :=
    Nat.add_le_add_left List.countP_le_length _
  omega

/-- What holds between two steps of a search from a name. -/
structure Exploring (g : Graph) (name : String) (q : Queue) : Prop where
  nodup : q.seen.Nodup
  sound : ∀ n, n ∈ q.seen ∨ n ∈ q.waiting → g.Reaches name n
  closed : ∀ n, n = name ∨ n ∈ q.seen → ∀ m, (n, m) ∈ g.edges → m ∈ q.seen ∨ m ∈ q.waiting

namespace Exploring

variable {q : Queue}

/-- Before the first step the names after the given one wait. -/
theorem start (g : Graph) (name : String) : Exploring g name (start g name) where
  nodup := List.nodup_nil
  sound n hn := .edge (mem_successors.1 (hn.resolve_left List.not_mem_nil))
  closed n hn m hedge := by
    obtain rfl := hn.resolve_right List.not_mem_nil
    exact Or.inr (mem_successors.2 hedge)

/-- A name that has been seen before brings nothing new. -/
theorem skip {seen waiting : List String} {first : String} (h : Exploring g name ⟨seen, first :: waiting⟩)
    (hold : first ∈ seen) : Exploring g name ⟨seen, waiting⟩ where
  nodup := h.nodup
  sound n hn := h.sound n (hn.imp_right (List.mem_cons_of_mem _))
  closed n hn m hedge := by
    rcases h.closed n hn m hedge with hm | hm
    · exact Or.inl hm
    · rcases List.mem_cons.1 hm with rfl | hm
      · exact Or.inl hold
      · exact Or.inr hm

/-- A name that is seen for the first time brings the names after it. -/
theorem visit {seen waiting : List String} {first : String}
    (h : Exploring g name ⟨seen, first :: waiting⟩) (hnew : first ∉ seen) :
    Exploring g name ⟨first :: seen, waiting ++ g.successors first⟩ where
  nodup := List.nodup_cons.2 ⟨hnew, h.nodup⟩
  sound n hn := by
    have hfirst := h.sound first (Or.inr List.mem_cons_self)
    simp only [List.mem_cons, List.mem_append, mem_successors] at hn
    rcases hn with (rfl | hn) | hn | hedge
    · exact hfirst
    · exact h.sound n (Or.inl hn)
    · exact h.sound n (Or.inr (List.mem_cons_of_mem _ hn))
    · exact hfirst.trans (.edge hedge)
  closed n hn m hedge := by
    simp only [List.mem_cons, List.mem_append, mem_successors] at hn ⊢
    by_cases hfirst : n = first
    · exact Or.inr (Or.inr (hfirst ▸ hedge))
    · rcases h.closed n (by tauto) m hedge with hm | hm
      · exact Or.inl (Or.inr hm)
      · rcases List.mem_cons.1 hm with rfl | hm
        · exact Or.inl (Or.inl rfl)
        · exact Or.inr (Or.inl hm)

/-- A step keeps what holds. -/
theorem next (h : Exploring g name q) : Exploring g name (q.next g) := by
  obtain ⟨seen, waiting⟩ := q
  cases waiting with
  | nil => exact h
  | cons first waiting =>
    rw [Queue.next]
    split
    next hold => exact h.skip hold
    next hnew => exact h.visit hnew

/-- Any number of steps keep what holds. -/
theorem iterate (h : Exploring g name q) (k : Nat) : Exploring g name ((Queue.next g)^[k] q) := by
  induction k with
  | zero => exact h
  | succ k ih =>
    rw [Function.iterate_succ_apply']
    exact ih.next

/-- When no name waits, all that can be reached has been seen. -/
theorem mem_seen_iff {seen : List String} (h : Exploring g name ⟨seen, []⟩) {n : String} :
    n ∈ seen ↔ g.Reaches name n :=
  ⟨fun hn => h.sound n (Or.inl hn), fun hreach => hreach.mem_of_closed
    (fun k hk m hedge => (h.closed k hk m hedge).resolve_right List.not_mem_nil) (Or.inl rfl)⟩

end Exploring

end Queue

/-- Names that are the same but for their order are put in one order. -/
theorem mergeSort_eq_of_perm {names others : List String} (hperm : names.Perm others) :
    names.mergeSort (· ≤ ·) = others.mergeSort (· ≤ ·) :=
  List.Perm.eq_of_pairwise' (List.pairwise_mergeSort' (· ≤ ·) names) (List.pairwise_mergeSort' (· ≤ ·) others)
    ((List.mergeSort_perm _ _).trans (hperm.trans (List.mergeSort_perm _ _).symm))

/-- The queue runs empty, and what has been seen by then, apart from the name itself, is what the name
implies. -/
theorem exists_iterate_next_start (g : Graph) (name : String) :
    ∃ k ≤ 2 * g.edges.length, ∃ seen, (Queue.next g)^[k] (Queue.start g name) = ⟨seen, []⟩ ∧
      g.implied name = (seen.filter (· ≠ name)).mergeSort (· ≤ ·) := by
  obtain ⟨k, hk, seen, hseen⟩ := Queue.exists_iterate_next g (Queue.start g name)
  have hexplored : Queue.Exploring g name ⟨seen, []⟩ := hseen ▸ (Queue.Exploring.start g name).iterate k
  refine ⟨k, Nat.le_trans hk (Queue.pending_start_le g name), seen, hseen, ?_⟩
  have hspread : ((g.spread (g.edges.length + 1) [] [name]).filter (· ≠ name)).Nodup :=
    (List.mergeSort_perm _ _).nodup_iff.1 (g.nodup_implied name)
  refine mergeSort_eq_of_perm ((List.perm_ext_iff_of_nodup hspread (hexplored.nodup.filter _)).2 fun n => ?_)
  rw [← (List.mergeSort_perm _ _).mem_iff, ← implied, mem_implied, List.mem_filter,
    hexplored.mem_seen_iff, decide_eq_true_iff, and_comm]

end Imageboard.Relationship.Graph
