import Imageboard.Calendar.Moment
import Imageboard.Text.LowerCase

/-!
# Viewers

A viewer is whoever searches or edits: an anonymous visitor or a user, with the filters in force and
the moment that ages are counted from.
-/

namespace Imageboard

/-- Who acts, and under which filters. -/
structure Viewer where
  userId : Option Int
  userName : Option String
  /-- Whether the votes of others may be searched. -/
  isModerator : Bool
  /-- Whether only safe posts are shown. -/
  safeMode : Bool
  /-- Whether deleted posts are left out unless asked for. -/
  hideDeleted : Bool
  /-- The moment that ages are counted from; without it the time of the store. -/
  now : Option Moment
  deriving DecidableEq, Repr

namespace Viewer

/-- A visitor without a name. -/
def anonymous : Viewer :=
  ⟨none, none, false, false, false, none⟩

/-- A user without filters. -/
def user (id : Option Int) (name : Option String) : Viewer :=
  { anonymous with userId := id, userName := name }

/-- Whether a name is the viewer's own, letter case aside. -/
def isSelf (v : Viewer) (name : String) : Bool :=
  match v.userName with
  | some own => Text.lowerString own == Text.lowerString name
  | none => false

/-- The viewer without the filters. -/
def withoutFilters (v : Viewer) : Viewer :=
  { v with safeMode := false, hideDeleted := false }

end Viewer

end Imageboard
