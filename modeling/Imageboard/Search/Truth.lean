/-!
# Three truth values

A condition on a post is true, false, or unknown because a value that it looks at is missing. Only
what is true is selected, and the negation of what is unknown is unknown.
-/

namespace Imageboard.Search

/-- True, false, or unknown. -/
abbrev Truth := Option Bool

namespace Truth

/-- Whether it is known to be true. -/
def holds (t : Truth) : Bool :=
  t == some true

/-- The negation. -/
def not (t : Truth) : Truth :=
  t.map Bool.not

/-- True if both are; false if one is. -/
def and : Truth → Truth → Truth
  | some false, _ | _, some false => some false
  | some true, some true => some true
  | _, _ => none

/-- True if one is; false if both are. -/
def or : Truth → Truth → Truth
  | some true, _ | _, some true => some true
  | some false, some false => some false
  | _, _ => none

/-- Whether all are true. -/
def all (ts : List Truth) : Truth :=
  ts.foldr and (some true)

/-- Whether one is true. -/
def any (ts : List Truth) : Truth :=
  ts.foldr or (some false)

/-- Both hold exactly if each does. -/
theorem holds_and (s t : Truth) : (s.and t).holds = (s.holds && t.holds) := by
  rcases s with _ | _ | _ <;> rcases t with _ | _ | _ <;> rfl

/-- One holds exactly if the first or the second does. -/
theorem holds_or (s t : Truth) : (s.or t).holds = (s.holds || t.holds) := by
  rcases s with _ | _ | _ <;> rcases t with _ | _ | _ <;> rfl

/-- All hold exactly if each does. -/
theorem holds_all (ts : List Truth) : (all ts).holds = ts.all holds := by
  induction ts with
  | nil => rfl
  | cons t ts ih =>
    rw [List.all_cons, ← ih]
    exact holds_and t (all ts)

/-- One of some holds exactly if one does. -/
theorem holds_any (ts : List Truth) : (any ts).holds = ts.any holds := by
  induction ts with
  | nil => rfl
  | cons t ts ih =>
    rw [List.any_cons, ← ih]
    exact holds_or t (any ts)

end Truth

end Imageboard.Search
