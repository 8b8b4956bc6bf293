import Imageboard.Proofs.Store.Running
import Imageboard.Relationship.Approval
import Mathlib.Data.List.Nodup

/-!
# Pages given the name of another tag

A name is one among all pages of a kind, live or not, but a rename is left out only if a live page has the
new name. So a page that is not live and has the new name makes the rename fail. The main statement says
what the rename of the pages of a tag does: if no kind has such a page, exactly those live pages are renamed
whose new name no page has, and nothing else changes.
-/

namespace Imageboard

open Relationship (PageKind renameIfFree renamePages)
open Store (artistExists renameArtist renameWikiPage wikiPageExists)
open Work

namespace Relationship.PageKind

/-- The kinds of page in the order in which they are renamed. -/
def all : List PageKind :=
  [.wikiPage, .artist]

/-- The table of the pages of a kind. -/
def table : PageKind → Table
  | .wikiPage => .wikiPages
  | .artist => .artists

/-- What a second page of a kind with the same name fails with. -/
def taken : PageKind → StoreFault
  | .wikiPage => .unique "WIKI_PAGES.title"
  | .artist => .unique "ARTISTS.name"

end Relationship.PageKind

namespace Contents

variable {c : Contents} {kind other : PageKind} {oldName newName : String} {stamp : Value}

/-- The names of the pages of a kind, each with whether the page is live. -/
def pageNames (c : Contents) : PageKind → List (String × Bool)
  | .wikiPage => c.wikiPages.map fun w => (w.title, w.isDeleted = 0)
  | .artist => c.artists.map fun a => (a.name, a.isActive = 1)

/-- Whether a page of a kind has a name. -/
def HasPage (c : Contents) (kind : PageKind) (name : String) : Prop :=
  name ∈ (c.pageNames kind).map (·.1)

/-- Whether a live page of a kind has a name. -/
def HasLivePage (c : Contents) (kind : PageKind) (name : String) : Prop :=
  (name, true) ∈ c.pageNames kind

instance (c : Contents) (kind : PageKind) (name : String) : Decidable (c.HasPage kind name) :=
  inferInstanceAs (Decidable (_ ∈ _))

instance (c : Contents) (kind : PageKind) (name : String) : Decidable (c.HasLivePage kind name) :=
  inferInstanceAs (Decidable (_ ∈ _))

/-- A live page has its name. -/
theorem HasLivePage.hasPage {name : String} (h : c.HasLivePage kind name) : c.HasPage kind name :=
  List.mem_map_of_mem (f := (·.1)) h

/-- Whether a live page can be given a new name: no page has it. -/
def Retitles (c : Contents) (oldName newName : String) (kind : PageKind) : Prop :=
  c.HasLivePage kind oldName ∧ ¬ c.HasPage kind newName

/-- Whether a live page is to be given a name that a page has, but no live one. -/
def Clashes (c : Contents) (oldName newName : String) (kind : PageKind) : Prop :=
  c.HasLivePage kind oldName ∧ c.HasPage kind newName ∧ ¬ c.HasLivePage kind newName

instance (c : Contents) (oldName newName : String) : DecidablePred (c.Retitles oldName newName) :=
  fun _ => inferInstanceAs (Decidable (_ ∧ _))

instance (c : Contents) (oldName newName : String) : DecidablePred (c.Clashes oldName newName) :=
  fun _ => inferInstanceAs (Decidable (_ ∧ _))

/-- No name is that of two pages of one kind. -/
def PagesNamedOnce (c : Contents) : Prop :=
  ∀ kind, ((c.pageNames kind).map (·.1)).Nodup

/-- The contents with a new name for the page of a kind that has a name, and all else as it was. -/
def retitle (oldName newName : String) (stamp : Value) (c : Contents) : PageKind → Contents
  | .wikiPage => { c with wikiPages := c.wikiPages.map fun w =>
      if w.title = oldName then { w with title := newName, updatedAt := stamp } else w }
  | .artist => { c with artists := c.artists.map fun a =>
      if a.name = oldName then { a with name := newName, updatedAt := stamp } else a }

/-- The contents with a new name for the pages of some kinds that can be given it. -/
def retitleFree (c : Contents) (oldName newName : String) (stamp : Value) (kinds : List PageKind) :
    Contents :=
  (kinds.filter (c.Retitles oldName newName)).foldl (retitle oldName newName stamp) c

/-- The live pages with a name are looked for in the titles of those not deleted. -/
theorem any_live_title {n : String} :
    (c.wikiPages.any fun w => w.title = n && w.isDeleted = 0) = decide (c.HasLivePage .wikiPage n) := by
  rw [Bool.eq_iff_iff]
  simp [HasLivePage, pageNames]

/-- The live artists with a name are looked for in the names of the active ones. -/
theorem any_live_name {n : String} :
    (c.artists.any fun a => a.name = n && a.isActive = 1) = decide (c.HasLivePage .artist n) := by
  rw [Bool.eq_iff_iff]
  simp [HasLivePage, pageNames]

/-- A live wiki page is renamed unless a wiki page has the new title. -/
theorem renameWikiPage_of_live (hold : c.HasLivePage .wikiPage oldName) (hne : oldName ≠ newName) :
    c.renameWikiPage oldName newName stamp =
      if c.HasPage .wikiPage newName then .error PageKind.wikiPage.taken
      else .ok (true, c.retitle oldName newName stamp .wikiPage) := by
  have hany (n : String) : c.wikiPages.any (·.title = n) = decide (c.HasPage .wikiPage n) := by
    rw [Bool.eq_iff_iff]
    simp [HasPage, pageNames]
  rw [renameWikiPage, hany, hany, decide_eq_true hold.hasPage]
  by_cases hnew : c.HasPage .wikiPage newName <;> simp [hnew, hne, PageKind.taken, retitle]

/-- A live artist is renamed unless an artist has the new name. -/
theorem renameArtist_of_live (hold : c.HasLivePage .artist oldName) (hne : oldName ≠ newName) :
    c.renameArtist oldName newName stamp =
      if c.HasPage .artist newName then .error PageKind.artist.taken
      else .ok (true, c.retitle oldName newName stamp .artist) := by
  have hany (n : String) : c.artists.any (·.name = n) = decide (c.HasPage .artist n) := by
    rw [Bool.eq_iff_iff]
    simp [HasPage, pageNames]
  rw [renameArtist, hany, hany, decide_eq_true hold.hasPage]
  by_cases hnew : c.HasPage .artist newName <;> simp [hnew, hne, PageKind.taken, retitle]

/-- A new name for a page of one kind leaves those of the other kinds alone. -/
theorem pageNames_retitle_of_ne (h : kind ≠ other) :
    (c.retitle oldName newName stamp kind).pageNames other = c.pageNames other := by
  cases kind <;> cases other <;> first | rfl | exact absurd rfl h

/-- A new name for a page takes the place of the old one. -/
theorem names_retitle :
    ((c.retitle oldName newName stamp kind).pageNames kind).map (·.1) =
      ((c.pageNames kind).map (·.1)).map fun n => if n = oldName then newName else n := by
  cases kind <;>
    · simp only [retitle, pageNames, List.map_map, List.map_inj_left, Function.comp_apply]
      intro page _
      split <;> rfl

/-- A new name that no page had before is that of one page only. -/
theorem PagesNamedOnce.retitle (hc : c.PagesNamedOnce) (hfree : ¬ c.HasPage kind newName) :
    (c.retitle oldName newName stamp kind).PagesNamedOnce := by
  intro other
  by_cases hkind : kind = other
  · subst hkind
    rw [names_retitle]
    refine List.Nodup.map_on (fun n hn m hm heq => ?_) (hc kind)
    split at heq <;> split at heq
    next hn' hm' => exact hn'.trans hm'.symm
    next => exact absurd (heq ▸ hm) hfree
    next => exact absurd (heq ▸ hn) hfree
    next => exact heq
  · rw [pageNames_retitle_of_ne hkind]
    exact hc other

/-- New names for pages of some kinds are still those of one page each, if no page had them before. -/
theorem PagesNamedOnce.foldl {kinds : List PageKind} (hc : c.PagesNamedOnce) (hkinds : kinds.Nodup)
    (hfree : ∀ kind ∈ kinds, ¬ c.HasPage kind newName) :
    (kinds.foldl (Contents.retitle oldName newName stamp) c).PagesNamedOnce := by
  induction kinds generalizing c with
  | nil => exact hc
  | cons kind kinds ih =>
    obtain ⟨hnot, hkinds⟩ := List.nodup_cons.1 hkinds
    refine ih (hc.retitle (hfree kind List.mem_cons_self)) hkinds fun other hother => ?_
    have hne : kind ≠ other := ne_of_mem_of_not_mem hother hnot |>.symm
    rw [HasPage, pageNames_retitle_of_ne hne]
    exact hfree other (List.mem_cons_of_mem _ hother)

/-- Names stay those of one page each where only pages are renamed that can be. -/
theorem PagesNamedOnce.retitleFree {kinds : List PageKind} (hc : c.PagesNamedOnce)
    (hkinds : kinds.Nodup) : (c.retitleFree oldName newName stamp kinds).PagesNamedOnce :=
  hc.foldl (hkinds.filter _) fun kind hkind => by
    have hretitles : c.Retitles oldName newName kind := by simpa using (List.mem_filter.1 hkind).2
    exact hretitles.2

/-- What is done to the page of one kind is as if it were the only one. -/
theorem retitleFree_singleton :
    c.retitleFree oldName newName stamp [kind] =
      if c.Retitles oldName newName kind then c.retitle oldName newName stamp kind else c := by
  rw [retitleFree, List.filter_singleton]
  by_cases h : c.Retitles oldName newName kind <;> simp [h]

/-- What is done to the page of one kind leaves those of the other kinds alone. -/
theorem pageNames_retitleFree_of_ne (h : kind ≠ other) :
    (c.retitleFree oldName newName stamp [kind]).pageNames other = c.pageNames other := by
  rw [retitleFree_singleton]
  split
  · exact pageNames_retitle_of_ne h
  · rfl

/-- The tables that are there stay. -/
theorem has_retitleFree_singleton {t : Table} :
    (c.retitleFree oldName newName stamp [kind]).has t = c.has t := by
  rw [retitleFree_singleton]
  split
  · cases kind <;> rfl
  · rfl

/-- A page of a kind can be renamed whatever was done to the page of another kind. -/
theorem retitles_retitleFree_of_ne (h : kind ≠ other) :
    (c.retitleFree oldName newName stamp [kind]).Retitles oldName newName other ↔
      c.Retitles oldName newName other := by
  rw [Retitles, Retitles, HasLivePage, HasPage, pageNames_retitleFree_of_ne h]
  rfl

/-- A page of a kind is in the way whatever was done to the page of another kind. -/
theorem clashes_retitleFree_of_ne (h : kind ≠ other) :
    (c.retitleFree oldName newName stamp [kind]).Clashes oldName newName other ↔
      c.Clashes oldName newName other := by
  rw [Clashes, Clashes, HasLivePage, HasLivePage, HasPage, pageNames_retitleFree_of_ne h]
  rfl

/-- The page of the one kind and then that of the other kind are renamed. -/
theorem retitleFree_retitleFree :
    (c.retitleFree oldName newName stamp [.wikiPage]).retitleFree oldName newName stamp [.artist] =
      c.retitleFree oldName newName stamp PageKind.all := by
  have hother : (c.retitleFree oldName newName stamp [.wikiPage]).Retitles oldName newName .artist ↔
      c.Retitles oldName newName .artist := retitles_retitleFree_of_ne (by decide)
  rw [retitleFree_singleton, if_congr hother rfl rfl, retitleFree_singleton, retitleFree]
  by_cases hwiki : c.Retitles oldName newName .wikiPage <;>
    by_cases hartist : c.Retitles oldName newName .artist <;>
      simp [PageKind.all, hwiki, hartist]

end Contents

namespace Relationship

variable {s u : Store} {kind : PageKind} {oldName newName : String}

/-- The rename of a page of a kind. -/
def renamePage (oldName newName : String) : PageKind → Work Bool
  | .wikiPage => renameIfFree wikiPageExists renameWikiPage oldName newName
  | .artist => renameIfFree artistExists renameArtist oldName newName

/-- A rename looks for live pages only, and is then refused if any page has the new name. -/
theorem runOn_renameIfFree {pageExists : String → Work Bool} {rename : String → String → Work Bool}
    {e : Failure}
    (hexists : ∀ n, (pageExists n).runOn s = (.ok (s.contents.HasLivePage kind n), s))
    (hrename : s.contents.HasLivePage kind oldName → (rename oldName newName).runOn s =
      if s.contents.HasPage kind newName then (.error e, s) else (.ok true, u)) :
    (renameIfFree pageExists rename oldName newName).runOn s =
      if s.contents.Retitles oldName newName kind then (.ok true, u)
      else if s.contents.Clashes oldName newName kind then (.error e, s)
      else (.ok false, s) := by
  rw [renameIfFree, runOn_bind_of_ok (hexists oldName)]
  by_cases hold : s.contents.HasLivePage kind oldName
  · rw [if_pos (by simpa using hold), runOn_bind_of_ok (hexists newName)]
    by_cases hnew : s.contents.HasLivePage kind newName
    · simp [Contents.Retitles, Contents.Clashes, hnew, hnew.hasPage]
    · rw [if_neg (by simpa using hnew), hrename hold]
      by_cases hany : s.contents.HasPage kind newName <;>
        simp [Contents.Retitles, Contents.Clashes, hold, hnew, hany]
  · simp [Contents.Retitles, Contents.Clashes, hold]

/-- The rename of a page of a kind gives it the new name, or fails, or does nothing. -/
theorem runOn_renamePage (htable : s.contents.has kind.table) (hfree : s.heldElsewhere = false)
    (hne : oldName ≠ newName) :
    (renamePage oldName newName kind).runOn s =
      if s.contents.Retitles oldName newName kind then
        (.ok true, { s with contents := s.contents.retitle oldName newName s.stamp kind })
      else if s.contents.Clashes oldName newName kind then (.error (.store kind.taken), s)
      else (.ok false, s) := by
  have hwritable : Writable [kind.table] [] s :=
    ⟨⟨List.forall_mem_cons.2 ⟨htable, fun _ h => absurd h List.not_mem_nil⟩, rfl⟩, hfree⟩
  cases kind with
  | wikiPage =>
    refine runOn_renameIfFree (fun n => ?_) fun hold => ?_
    · refine (runOn_read_of_readable hwritable.toReadable _).trans ?_
      rw [Contents.any_live_title]
    · rw [renameWikiPage, runOn_bind_of_ok (runOn_get s)]
      refine (runOn_write_of_writable hwritable _).trans ?_
      rw [Contents.renameWikiPage_of_live hold hne]
      split_ifs <;> rfl
  | artist =>
    refine runOn_renameIfFree (fun n => ?_) fun hold => ?_
    · refine (runOn_read_of_readable hwritable.toReadable _).trans ?_
      rw [Contents.any_live_name]
    · rw [renameArtist, runOn_bind_of_ok (runOn_get s)]
      refine (runOn_write_of_writable hwritable _).trans ?_
      rw [Contents.renameArtist_of_live hold hne]
      split_ifs <;> rfl

/-- Without a page in the way, the rename of the page of a kind succeeds. -/
theorem runOn_renamePage_of_not_clashes (htable : s.contents.has kind.table)
    (hfree : s.heldElsewhere = false) (hne : oldName ≠ newName)
    (hclear : ¬ s.contents.Clashes oldName newName kind) :
    (renamePage oldName newName kind).runOn s =
      (.ok (decide (s.contents.Retitles oldName newName kind)),
        { s with contents := s.contents.retitleFree oldName newName s.stamp [kind] }) := by
  rw [runOn_renamePage htable hfree hne, Contents.retitleFree_singleton, if_neg hclear]
  by_cases h : s.contents.Retitles oldName newName kind <;> simp [h]

/-- With a page in the way, the rename of the page of a kind fails. -/
theorem runOn_renamePage_of_clashes (htable : s.contents.has kind.table)
    (hfree : s.heldElsewhere = false) (hne : oldName ≠ newName)
    (hclash : s.contents.Clashes oldName newName kind) :
    (renamePage oldName newName kind).runOn s = (.error (.store kind.taken), s) := by
  rw [runOn_renamePage htable hfree hne, if_neg fun h => h.2 hclash.2.1, if_pos hclash]

/-- The rename of the artist is not affected by that of the wiki page. -/
theorem runOn_renamePage_artist_after (htable : s.contents.has .artists)
    (hfree : s.heldElsewhere = false) (hne : oldName ≠ newName)
    (hu : u = { s with contents := s.contents.retitleFree oldName newName s.stamp [.wikiPage] }) :
    (s.contents.Clashes oldName newName .artist →
      (renamePage oldName newName .artist).runOn u = (.error (.store PageKind.artist.taken), u)) ∧
    (¬ s.contents.Clashes oldName newName .artist →
      (renamePage oldName newName .artist).runOn u =
        (.ok (decide (s.contents.Retitles oldName newName .artist)),
          { s with contents := s.contents.retitleFree oldName newName s.stamp PageKind.all })) := by
  have htableAfter : u.contents.has PageKind.artist.table := by
    rw [hu]
    exact Contents.has_retitleFree_singleton.trans htable
  have hfreeAfter : u.heldElsewhere = false := hu ▸ hfree
  have hclashes : u.contents.Clashes oldName newName .artist ↔
      s.contents.Clashes oldName newName .artist := by
    rw [hu]
    exact Contents.clashes_retitleFree_of_ne (by decide)
  have hretitles : decide (u.contents.Retitles oldName newName .artist) =
      decide (s.contents.Retitles oldName newName .artist) := by
    rw [hu]
    exact decide_eq_decide.2 (Contents.retitles_retitleFree_of_ne (by decide))
  refine ⟨fun h => runOn_renamePage_of_clashes htableAfter hfreeAfter hne (hclashes.2 h), fun h => ?_⟩
  rw [runOn_renamePage_of_not_clashes htableAfter hfreeAfter hne (hclashes.not.2 h)]
  have hafter : u.contents.retitleFree oldName newName u.stamp [.artist] =
      s.contents.retitleFree oldName newName s.stamp PageKind.all := by
    rw [hu]
    exact Contents.retitleFree_retitleFree
  rw [hretitles, hafter, hu]

/-- If no page that is not live is in the way, the pages of a tag are renamed, and exactly those live ones
whose new name no page has; otherwise the rename fails for the first kind with such a page, and only pages
of the kinds before it have been renamed. In both cases nothing else has changed, and names are still
those of one page each. -/
theorem runOn_renamePages (htables : ∀ kind : PageKind, s.contents.has kind.table)
    (hfree : s.heldElsewhere = false) (hc : s.contents.PagesNamedOnce) (hne : oldName ≠ newName) :
    ((∀ kind, ¬ s.contents.Clashes oldName newName kind) ∧
        (renamePages oldName newName).runOn s =
          (.ok (PageKind.all.filter (s.contents.Retitles oldName newName)),
            { s with contents := s.contents.retitleFree oldName newName s.stamp PageKind.all }) ∨
      ∃ before kind after, PageKind.all = before ++ kind :: after ∧
        (∀ k ∈ before, ¬ s.contents.Clashes oldName newName k) ∧
        s.contents.Clashes oldName newName kind ∧
        (renamePages oldName newName).runOn s =
          (.error (.store kind.taken),
            { s with contents := s.contents.retitleFree oldName newName s.stamp before })) ∧
      ((renamePages oldName newName).runOn s).2.contents.PagesNamedOnce := by
  have hsplit : renamePages oldName newName = do
      let wiki ← renamePage oldName newName .wikiPage
      let artist ← renamePage oldName newName .artist
      return (if wiki then [PageKind.wikiPage] else []) ++ if artist then [.artist] else [] := rfl
  rw [hsplit]
  by_cases hwiki : s.contents.Clashes oldName newName .wikiPage
  · rw [runOn_bind_of_error (runOn_renamePage_of_clashes (htables .wikiPage) hfree hne hwiki)]
    exact ⟨Or.inr ⟨[], .wikiPage, [.artist], rfl, fun _ h => absurd h List.not_mem_nil, hwiki, rfl⟩, hc⟩
  rw [runOn_bind_of_ok (runOn_renamePage_of_not_clashes (htables .wikiPage) hfree hne hwiki)]
  obtain ⟨hclash, hclear⟩ := runOn_renamePage_artist_after (htables .artist) hfree hne rfl
  by_cases hartist : s.contents.Clashes oldName newName .artist
  · rw [runOn_bind_of_error (hclash hartist)]
    refine ⟨Or.inr ⟨[.wikiPage], .artist, [], rfl, fun k hk => ?_, hartist, rfl⟩,
      hc.retitleFree (by decide)⟩
    exact List.mem_singleton.1 hk ▸ hwiki
  · rw [runOn_bind_of_ok (hclear hartist), runOn_pure]
    refine ⟨Or.inl ⟨fun kind => ?_, ?_⟩, hc.retitleFree (by decide)⟩
    · cases kind
      · exact hwiki
      · exact hartist
    · by_cases hw : s.contents.Retitles oldName newName .wikiPage <;>
        by_cases ha : s.contents.Retitles oldName newName .artist <;>
          simp [PageKind.all, hw, ha]

/-- Pages of kittens and of cats: the artist of kittens is inactive, and the wiki page of cats is deleted. -/
def kittenPagesContents : Contents :=
  { Contents.empty with
    wikiPages := [⟨1, "kitten", "", 0, .null⟩, ⟨2, "cat", "", 1, .null⟩]
    artists := [⟨1, "kitten", 0, .null⟩, ⟨2, "cat", 1, .null⟩] }

/-- The wiki page of kittens can be that of felines, of whom there is no page. -/
theorem runOn_renamePages_feline :
    let s : Store := .ofContents kittenPagesContents ⟨0, 0⟩ .standard
    (∀ kind : PageKind, s.contents.has kind.table) ∧ s.heldElsewhere = false ∧
      s.contents.PagesNamedOnce ∧ "kitten" ≠ "feline" ∧
      (renamePages "kitten" "feline").runOn s = (.ok [.wikiPage],
        { s with contents := { kittenPagesContents with
            wikiPages := [⟨1, "feline", "", 0, s.stamp⟩, ⟨2, "cat", "", 1, .null⟩] } }) := by
  intro s
  have htables (kind : PageKind) : s.contents.has kind.table := by cases kind <;> decide
  have hc : s.contents.PagesNamedOnce := fun kind => by cases kind <;> decide
  have hclear (kind : PageKind) : ¬ s.contents.Clashes "kitten" "feline" kind := by
    cases kind <;> decide
  have hne : "kitten" ≠ "feline" := by decide
  refine ⟨htables, rfl, hc, hne, ?_⟩
  rcases (runOn_renamePages htables rfl hc hne).1 with ⟨-, hrun⟩ | ⟨-, kind, -, -, -, hclash, -⟩
  · rw [hrun]
    rfl
  · exact absurd hclash (hclear kind)

/-- The wiki page of kittens cannot be that of cats, since there is a deleted one: the rename is not left out,
it fails. -/
theorem renamePages_kitten_fails :
    let s : Store := .ofContents kittenPagesContents ⟨0, 0⟩ .standard
    kittenPagesContents.PagesNamedOnce ∧
      (renamePages "kitten" "cat").runOn s = (.error (.store (.unique "WIKI_PAGES.title")), s) :=
  ⟨fun kind => by cases kind <;> decide, by decide +kernel⟩

end Relationship

end Imageboard
