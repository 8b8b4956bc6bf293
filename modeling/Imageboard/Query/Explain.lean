import Imageboard.Json.Basic
import Imageboard.Query.Statement

/-!
# Explaining plans

What a plan requires, excludes and orders by, as structured data.
-/

namespace Imageboard.Query

/-- A list of texts as structured data. -/
def textList (ss : List String) : Json :=
  .list (ss.map .text)

/-- A plan as structured data. -/
def Plan.explanation (p : Plan) : Json :=
  .object
    [("required", textList (Plan.names p.required)),
     ("negated", textList (Plan.names p.negated)),
     ("optional", textList (Plan.names p.optional)),
     ("predicates", textList (p.conditions.map (·.describe))),
     ("order", .text p.order.describe),
     ("limit", match p.limit with
       | some n => .integer n
       | none => .null)]

end Imageboard.Query
