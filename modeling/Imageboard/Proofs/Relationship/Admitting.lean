import Imageboard.Proofs.Relationship.Checking
import Imageboard.Proofs.Relationship.Queueing

/-!
# Which implications are admitted

Apart from wiki pages, an implication breaks no rule exactly if its names differ, neither can be reached
from the other by the implications in force, and neither has an alias in force. This rests on the search
for what a tag implies being exact.
-/

namespace Imageboard.Relationship

open Store Work

variable {s : Store} {g : Graph} {antecedent consequent : String}

/-- The graph of the implications in force is read from their table. -/
theorem runOn_implicationGraph (htable : s.contents.has .implications) :
    implicationGraph.runOn s = (.ok s.contents.implicationGraph, s) := by
  have hreadable : Readable [.implications] [] s := ⟨by simpa using htable, rfl⟩
  exact runOn_bind_of_ok (runOn_read_of_readable hreadable _)

/-- What a name stands for is read from the table of aliases. -/
theorem runOn_activeAliasConsequent (htable : s.contents.has .aliases) (name : String) :
    (activeAliasConsequent name).runOn s = (.ok (s.contents.aliasOf? name), s) :=
  runOn_read_of_readable ⟨by simpa using htable, rfl⟩ _

/-- A name implies another one exactly if that can be reached. -/
theorem contains_implied_iff (hne : antecedent ≠ consequent) :
    (g.implied antecedent).contains consequent = true ↔ g.Reaches antecedent consequent := by
  rw [List.contains_iff_mem, Graph.mem_implied]
  exact and_iff_right hne.symm

/-- An implication between two names says something new exactly if the second cannot be reached yet. -/
theorem redundancyErrors_eq_nil_iff (hne : antecedent ≠ consequent) :
    redundancyErrors g antecedent consequent = [] ↔ ¬ g.Reaches antecedent consequent := by
  unfold redundancyErrors
  split
  next hedge =>
    have hreaches : g.Reaches antecedent consequent :=
      .edge (Graph.mem_successors.1 (List.contains_iff_mem.1 hedge))
    simp [hreaches]
  next =>
    split
    next himplied => simp [(contains_implied_iff hne).1 himplied]
    next hnot => simp [(contains_implied_iff hne).not.1 hnot]

/-- Nothing is said about a name exactly if it has no alias in force. -/
theorem sayIf_aliased_eq_nil_iff {c : Contents} {name message : String} :
    sayIf (c.aliasOf? name).isSome message = [] ↔ name ∉ c.aliased := by
  rw [sayIf_eq_nil_iff, Option.isSome_eq_false_iff, Option.isNone_iff_eq_none,
    Contents.aliasOf?_eq_none_iff]

/-- Nothing is said about a circle exactly if the antecedent cannot be reached from the consequent. -/
theorem sayIf_circular_eq_nil_iff (hne : antecedent ≠ consequent) {message : String} :
    sayIf ((g.implied consequent).contains antecedent) message = [] ↔
      ¬ g.Reaches consequent antecedent := by
  rw [sayIf_eq_nil_iff, Bool.eq_false_iff, ne_eq, contains_implied_iff hne.symm]

/-- The rules for implications, without those on wiki pages, are all kept exactly by two names that differ,
of which neither can be reached from the other or has an alias in force. -/
theorem runOn_implicationErrors (himplications : s.contents.has .implications)
    (haliases : s.contents.has .aliases) (antecedent consequent : String) :
    ∃ errors, (implicationErrors antecedent consequent true).runOn s = (.ok errors, s) ∧
      (errors = [] ↔ antecedent ≠ consequent ∧
        ¬ s.contents.implicationGraph.Reaches antecedent consequent ∧
        ¬ s.contents.implicationGraph.Reaches consequent antecedent ∧
        antecedent ∉ s.contents.aliased ∧ consequent ∉ s.contents.aliased) := by
  rw [implicationErrors]
  by_cases hsame : antecedent = consequent
  · rw [if_pos hsame]
    exact ⟨_, rfl, by simp [hsame]⟩
  · rw [if_neg hsame, runOn_bind_of_ok (runOn_implicationGraph himplications),
      runOn_bind_of_ok (runOn_activeAliasConsequent haliases antecedent),
      runOn_bind_of_ok (runOn_activeAliasConsequent haliases consequent)]
    refine ⟨_, rfl, ?_⟩
    rw [List.append_nil, List.append_eq_nil_iff, List.append_eq_nil_iff, List.append_eq_nil_iff,
      redundancyErrors_eq_nil_iff hsame, sayIf_circular_eq_nil_iff hsame, sayIf_aliased_eq_nil_iff,
      sayIf_aliased_eq_nil_iff]
    tauto

/-- A name implies exactly the other names that can be reached from it, each listed once: a queue that
starts with the names after it runs empty, whatever cycles there are, and has seen all these by then. So
an implication breaks no rule, apart from those on wiki pages, exactly if its names differ, neither can be
reached from the other by the implications in force, and neither has an alias in force. -/
theorem implied_exact_and_implicationErrors_eq_nil_iff (g : Graph) (name : String) {s : Store}
    (himplications : s.contents.has .implications) (haliases : s.contents.has .aliases)
    (antecedent consequent : String) :
    ((∃ k ≤ 2 * g.edges.length, ∃ seen,
        (Graph.Queue.next g)^[k] (Graph.Queue.start g name) = ⟨seen, []⟩ ∧
          g.implied name = (seen.filter (· ≠ name)).mergeSort (· ≤ ·)) ∧
      (g.implied name).Nodup ∧ ∀ n, n ∈ g.implied name ↔ n ≠ name ∧ g.Reaches name n) ∧
    ∃ errors, (implicationErrors antecedent consequent true).runOn s = (.ok errors, s) ∧
      (errors = [] ↔ antecedent ≠ consequent ∧
        ¬ s.contents.implicationGraph.Reaches antecedent consequent ∧
        ¬ s.contents.implicationGraph.Reaches consequent antecedent ∧
        antecedent ∉ s.contents.aliased ∧ consequent ∉ s.contents.aliased) :=
  ⟨⟨g.exists_iterate_next_start name, g.nodup_implied name, fun _ => Graph.mem_implied⟩,
    runOn_implicationErrors himplications haliases antecedent consequent⟩

/-- Contents in which cats and felines imply each other, lions imply themselves and cats, and a kitty is a
kitten. -/
def circlingContents : Contents :=
  let implication (id : Int) (antecedent consequent : String) : Relationship :=
    ⟨id, antecedent, consequent, .active, none, none, none, .null, .null⟩
  { Contents.empty with
    aliases := [⟨1, "kitty", "kitten", .active, none, none, none, .null, .null⟩]
    implications := [implication 1 "cat" "feline", implication 2 "feline" "cat",
      implication 3 "lion" "lion", implication 4 "lion" "cat"] }

/-- Lions imply felines but not themselves, and kittens may imply lions. -/
theorem implied_exact_and_implicationErrors_eq_nil_iff_lion :
    let s : Store := .ofContents circlingContents ⟨0, 0⟩ .standard
    let g := circlingContents.implicationGraph
    s.contents.has .implications ∧ s.contents.has .aliases ∧
      "feline" ∈ g.implied "lion" ∧ "lion" ∉ g.implied "lion" ∧
      (implicationErrors "kitten" "lion" true).runOn s = (.ok [], s) := by
  intro s g
  have himplications : s.contents.has .implications := by decide
  have haliases : s.contents.has .aliases := by decide
  obtain ⟨⟨-, -, himplied⟩, errors, hrun, hnil⟩ := implied_exact_and_implicationErrors_eq_nil_iff g "lion"
    himplications haliases "kitten" "lion"
  have hedge {p : String × String} : p ∈ g.edges ↔ p ∈ circlingContents.inForce .implication :=
    Contents.mem_edges_implicationGraph
  have hfeline : g.Reaches "lion" "feline" :=
    .step (hedge.2 (by decide : ("lion", "cat") ∈ _)) (.edge (hedge.2 (by decide)))
  have hapart : ∀ p ∈ circlingContents.inForce .implication, p.1 ≠ "kitten" ∧ p.2 ≠ "kitten" := by decide
  have hforth : ¬ g.Reaches "kitten" "lion" := by
    intro h
    cases h with
    | edge h => exact (hapart _ (hedge.1 h)).1 rfl
    | step h _ => exact (hapart _ (hedge.1 h)).1 rfl
  have hback : ¬ g.Reaches "lion" "kitten" := by
    intro h
    obtain ⟨n, hn⟩ := h.exists_edge
    exact (hapart _ (hedge.1 hn)).2 rfl
  obtain rfl := hnil.2 ⟨by decide, hforth, hback, by decide, by decide⟩
  exact ⟨himplications, haliases, (himplied _).2 ⟨by decide, hfeline⟩, fun h => ((himplied _).1 h).1 rfl,
    hrun⟩

end Imageboard.Relationship
