import Imageboard.Relationship.Rules
import Imageboard.Store.Maintenance
import Imageboard.Text.Separated

/-!
# Health of relationships and counts

A check of the store lists what should not be: chains of aliases, names with several aliases in
force, cycles of implications, implications on aliased tags, and wrong post counts, which it can
correct. Each list is a table, and a summary has their sizes.
-/

namespace Imageboard.Health

/-- A table of a report. -/
structure Sheet where
  fileName : String
  header : List String
  rows : List (List String)
  deriving DecidableEq, Repr

/-- The text of a table. -/
def Sheet.text (s : Sheet) : String :=
  Text.writeTable Text.Layout.tabs (s.header :: s.rows)

/-- The aliases in force by their antecedents. -/
def sortedAliases (c : Contents) : List Relationship :=
  (c.activeRelationships .alias).mergeSort fun a b => a.antecedent ≤ b.antecedent

/-- Aliases whose consequent is aliased itself. -/
def aliasChains (c : Contents) : Sheet where
  fileName := "alias_chains.tsv"
  header := ["antecedent", "consequent", "next_consequent"]
  rows :=
    let aliases := sortedAliases c
    aliases.flatMap fun a =>
      (aliases.filter (·.antecedent = a.consequent)).map fun b =>
        [a.antecedent, a.consequent, b.consequent]

/-- Names that have several aliases in force, with how many. -/
def duplicateAliases (c : Contents) : Sheet where
  fileName := "duplicate_active_aliases.tsv"
  header := ["antecedent", "count"]
  rows :=
    let names := (sortedAliases c).map (·.antecedent)
    let counted := (Query.distinct names).map fun n => (n, names.count n)
    ((counted.filter (·.2 > 1)).mergeSort fun a b => a.2 ≥ b.2).map fun r => [r.1, toString r.2]

/-- Cycles of implications. -/
def implicationCycles (c : Contents) : Sheet where
  fileName := "implication_cycles.tsv"
  header := ["cycle"]
  rows := c.implicationGraph.cycles.map fun cycle => [" -> ".intercalate cycle]

/-- Whether an implication stands before another or at its place. -/
def precedes (a b : Relationship) : Bool :=
  a.antecedent < b.antecedent || (a.antecedent = b.antecedent && a.consequent ≤ b.consequent)

/-- Implications on tags that are aliased, with the alias. -/
def aliasedImplications (c : Contents) : Sheet where
  fileName := "implications_on_aliased_tags.tsv"
  header := ["antecedent", "consequent", "aliased_tag", "alias_consequent"]
  rows :=
    let aliases := sortedAliases c
    ((c.activeRelationships .implication).mergeSort precedes).flatMap fun i =>
      (aliases.filter fun a => a.antecedent = i.antecedent || a.antecedent = i.consequent).map
        fun a => [i.antecedent, i.consequent, a.antecedent, a.consequent]

/-- Tags whose post counts are wrong, with the right ones. -/
def countDrift (c : Contents) : Sheet where
  fileName := "post_count_drift.tsv"
  header := ["tag", "post_count", "actual"]
  rows :=
    ((c.tags.filter c.isMiscounted).mergeSort fun a b => a.name ≤ b.name).map fun t =>
      [t.name, toString t.postCount, toString (c.taggingCount t.id)]

/-- The name of the file of the summary. -/
def summaryFile : String := "relationship_health_summary.tsv"

/-- The sizes of the lists, and how many counts were corrected. -/
def summary (path : String) (sheets : List (String × Sheet)) (corrected : Int) : Sheet where
  fileName := summaryFile
  header := ["metric", "value"]
  rows := [["db_path", path]] ++ (sheets.map fun s => [s.1, toString s.2.rows.length]) ++
    [["post_counts_fixed", toString corrected]]

/-- The lists of a report under the names that the summary has for them. -/
def sheets (c : Contents) : List (String × Sheet) :=
  [("alias_chains", aliasChains c), ("duplicate_active_aliases", duplicateAliases c),
   ("implication_cycles", implicationCycles c),
   ("implications_on_aliased_tags", aliasedImplications c), ("post_count_drift", countDrift c)]

/-- Checks a store that is known by a path, corrects its post counts if wanted, and returns the
tables of the report. -/
def check (path : String) (correctsCounts : Bool) : Work (List Sheet) := do
  Store.createTables
  let c := (← get).contents
  let corrected ←
    if correctsCounts && !(countDrift c).rows.isEmpty then
      Work.inTransaction fun _ => Store.regeneratePostCounts
    else pure 0
  return (sheets c).map (·.2) ++ [summary path (sheets c) corrected]

/-- Checks a store from outside. -/
def checkFromOutside (path : String) (correctsCounts : Bool) : Work (List Sheet) :=
  Store.outside Categories.standard (check path correctsCounts)

end Imageboard.Health
