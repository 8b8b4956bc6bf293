import Imageboard.Store.Basic
import Imageboard.TagName

/-!
# Wiki pages and artists

Pages are known by their titles and artists by their names; both are one among all records, deleted
or inactive ones included.
-/

namespace Imageboard

namespace Contents

/-- Adds a wiki page. -/
def addWikiPage (title body : String) (stamp : Value) (c : Contents) :
    Except StoreFault (Int × Contents) :=
  if c.wikiPages.any (·.title = title) then .error (.unique "WIKI_PAGES.title")
  else
    let id := nextId (c.wikiPages.map (·.id))
    .ok (id, { c with wikiPages := c.wikiPages ++ [⟨id, title, body, 0, stamp⟩] })

/-- Adds an artist. -/
def addArtist (name : String) (stamp : Value) (c : Contents) :
    Except StoreFault (Int × Contents) :=
  if c.artists.any (·.name = name) then .error (.unique "ARTISTS.name")
  else
    let id := nextId (c.artists.map (·.id))
    .ok (id, { c with artists := c.artists ++ [⟨id, name, 1, stamp⟩] })

/-- Renames the wiki page with a title, and says whether there is one. -/
def renameWikiPage (oldTitle newTitle : String) (stamp : Value) (c : Contents) :
    Except StoreFault (Bool × Contents) :=
  if !c.wikiPages.any (·.title = oldTitle) then .ok (false, c)
  else if oldTitle ≠ newTitle ∧ c.wikiPages.any (·.title = newTitle) then
    .error (.unique "WIKI_PAGES.title")
  else
    .ok (true, { c with wikiPages := c.wikiPages.map fun w =>
      if w.title = oldTitle then { w with title := newTitle, updatedAt := stamp } else w })

/-- Renames the artist with a name, and says whether there is one. -/
def renameArtist (oldName newName : String) (stamp : Value) (c : Contents) :
    Except StoreFault (Bool × Contents) :=
  if !c.artists.any (·.name = oldName) then .ok (false, c)
  else if oldName ≠ newName ∧ c.artists.any (·.name = newName) then .error (.unique "ARTISTS.name")
  else
    .ok (true, { c with artists := c.artists.map fun a =>
      if a.name = oldName then { a with name := newName, updatedAt := stamp } else a })

end Contents

namespace Store

open Work

/-- Makes a wiki page and returns its id. -/
def createWikiPage (title body : String) : Work Int := do
  let stamp := (← get).stamp
  write [.wikiPages] [] (Contents.addWikiPage (TagName.normalize title) body stamp)

/-- Whether there is a wiki page with a title that is not deleted. -/
def wikiPageExists (title : String) : Work Bool :=
  read [.wikiPages] [] fun c => c.wikiPages.any fun w => w.title = title && w.isDeleted = 0

/-- Renames a wiki page and says whether there is one. -/
def renameWikiPage (oldTitle newTitle : String) : Work Bool := do
  let stamp := (← get).stamp
  write [.wikiPages] [] (Contents.renameWikiPage oldTitle newTitle stamp)

/-- Makes an artist and returns its id. -/
def createArtist (name : String) : Work Int := do
  let stamp := (← get).stamp
  write [.artists] [] (Contents.addArtist (TagName.normalize name) stamp)

/-- Whether there is an active artist with a name. -/
def artistExists (name : String) : Work Bool :=
  read [.artists] [] fun c => c.artists.any fun a => a.name = name && a.isActive = 1

/-- Renames an artist and says whether there is one. -/
def renameArtist (oldName newName : String) : Work Bool := do
  let stamp := (← get).stamp
  write [.artists] [] (Contents.renameArtist oldName newName stamp)

end Store

end Imageboard
