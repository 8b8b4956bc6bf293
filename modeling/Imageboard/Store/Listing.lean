import Imageboard.Store.Basic

/-!
# Listing tables

The rows of a table in an order that does not depend on how they came, and which of some tables
differ between two contents.
-/

namespace Imageboard

/-- Whether a row stands before another, or at the same place, by its first cells. -/
def rowPrecedes (keys : Nat) (a b : List Value) : Bool :=
  match ((a.zip b).take keys).find? fun p => p.1.order p.2 ≠ .eq with
  | some (x, y) => x.order y = .lt
  | none => true

namespace Contents

/-- The rows of a table, sorted by their first three cells. -/
def sortedRows (c : Contents) (t : Table) : List (List Value) :=
  (c.rows t).mergeSort (rowPrecedes 3)

/-- The first cells of the rows of a table, sorted; there are none if the table is gone. -/
def summary? (c : Contents) (t : Table) (width : Nat) : Option (List (List Value)) :=
  if c.has t then some (((c.rows t).map fun r => r.take width).mergeSort (rowPrecedes width))
  else none

/-- The tables that are watched for changes, with the number of cells that are looked at. -/
def watched : List (Table × Nat) :=
  [(.tags, 4), (.aliases, 4), (.implications, 4), (.taggings, 2)]

end Contents

namespace Store

/-- The columns of a table and all its rows, sorted. -/
def dump (t : Table) : Work (List String × List (List Value)) :=
  Work.read [t] [] fun c => (t.columns, c.sortedRows t)

end Store

end Imageboard
