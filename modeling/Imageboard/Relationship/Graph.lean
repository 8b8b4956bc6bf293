import Imageboard.Query.Term

/-!
# Implication graphs

The active implications form a directed graph on tag names. A tag implies every tag that can be
reached from it; and a graph in which a tag can be reached from itself has a cycle. Cycles are found
by a depth first search that leaves a tag for good when all tags after it have been visited.
-/

namespace Imageboard.Relationship

open Query (distinct)

/-- A directed graph by its edges. -/
structure Graph where
  edges : List (String × String)
  deriving DecidableEq, Repr

namespace Graph

/-- The tags that have an edge from the given one, sorted. -/
def successors (g : Graph) (name : String) : List String :=
  (distinct ((g.edges.filter (·.1 = name)).map (·.2))).mergeSort (· ≤ ·)

/-- The tags that have an edge to another, sorted. -/
def sources (g : Graph) : List String :=
  (distinct (g.edges.map (·.1))).mergeSort (· ≤ ·)

/-- Adds what can be reached in up to `fuel` further rounds from the tags reached last. -/
def spread (g : Graph) : Nat → List String → List String → List String
  | 0, reached, _ => reached
  | fuel + 1, reached, frontier =>
    match (distinct (frontier.flatMap g.successors)).filter fun n => !reached.contains n with
    | [] => reached
    | next => spread g fuel (reached ++ next) next

/-- The tags other than the given one that it implies, sorted. -/
def implied (g : Graph) (name : String) : List String :=
  ((g.spread (g.edges.length + 1) [] [name]).filter (· ≠ name)).mergeSort (· ≤ ·)

/-- A tag can be reached from another by one edge or more. -/
inductive Reaches (g : Graph) : String → String → Prop where
  | edge {a b : String} : (a, b) ∈ g.edges → Reaches g a b
  | step {a b c : String} : (a, b) ∈ g.edges → Reaches g b c → Reaches g a c

/-- What a search for cycles has found: tags left for good, and cycles. -/
structure Found where
  done : List String
  cycles : List (List String)

/-- The first of some names in order. -/
def least? : List String → Option String
  | [] => none
  | name :: names =>
    some (names.foldl (fun least n => if n < least then n else least) name)

/-- A cycle written from its smallest tag on. -/
def rotate (cycle : List String) : List String :=
  match least? cycle with
  | some first =>
    let before := cycle.takeWhile (· ≠ first)
    cycle.drop before.length ++ before
  | none => cycle

/-- Visits a tag at the end of a path. -/
def visit (g : Graph) : Nat → List String → String → Found → Found
  | 0, _, _, found => found
  | fuel + 1, path, node, found =>
    if path.contains node then
      let cycle := rotate (path.dropWhile (· ≠ node))
      if found.cycles.contains cycle then found
      else { found with cycles := found.cycles ++ [cycle] }
    else if found.done.contains node then found
    else
      let found := (g.successors node).foldl
        (fun found next => visit g fuel (path ++ [node]) next found) found
      { found with done := node :: found.done }

/-- Whether one list of names stands before another or is equal to it. -/
def listLe : List String → List String → Bool
  | [], _ => true
  | _ :: _, [] => false
  | a :: as, b :: bs => if a = b then listLe as bs else a < b

/-- The cycles that the search finds, sorted. The search goes as deep as its longest path; that a machine
may bound the depth of calls is left out. -/
def cycles (g : Graph) : List (List String) :=
  let found := g.sources.foldl
    (fun found node => g.visit (g.edges.length + 2) [] node found) ⟨[], []⟩
  found.cycles.mergeSort listLe

end Graph

end Imageboard.Relationship
