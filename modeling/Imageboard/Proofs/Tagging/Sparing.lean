import Imageboard.Proofs.Store.Sparing
import Imageboard.Proofs.Tagging.Substituting

/-!
# Changes of posts and tags that fail

Posts, pools, favourites and votes are made in one block, and a block that fails changes nothing. Taking
tags off a post and replacing a tag on posts are more than one statement outside a block, but when the
first of them has changed something the others cannot fail. Putting tags on a post is different: when the
name of a tag is refused, the tags before it stay on the post. What is left then is told exactly.
-/

namespace Imageboard.Store

open Work Contents

variable {s t m : Store} {e : Failure} {name : String} {postId : Int}

/-- Looking for a tag leaves the store as it is. -/
theorem reads_getTag (name : String) : Reads (getTag name) :=
  reads_read [.tags] [] _

/-- Listing the posts of a tag leaves the store as it is. -/
theorem reads_postIdsWithTag (name : String) : Reads (postIdsWithTag name) :=
  reads_read [.taggings, .tags] [] _

/-! ## Making a tag -/

/-- A tag that cannot be found or made leaves the store as it is. -/
theorem runOn_findOrCreateTag_eq_error {category : Option Int}
    (hrun : (findOrCreateTag name category).runOn s = (.error e, t)) : t = s := by
  rw [findOrCreateTag] at hrun
  dsimp only at hrun
  split at hrun
  · exact (congrArg Prod.snd hrun).symm
  rcases runOn_bind_eq_error.1 hrun with hread | ⟨found, m, hread, hrest⟩
  · exact (reads_getTag _).eq_of_runOn hread
  · obtain rfl := (reads_getTag _).eq_of_runOn hread
    cases found with
    | some tag => cases hrest
    | none =>
      rw [runOn_bind_of_ok (runOn_get _)] at hrest
      exact runOn_write_eq_error hrest

/-- A tag is made only if nobody else holds the store; otherwise one that is found leaves the store as
it is. -/
theorem runOn_findOrCreateTag_eq_ok {tag : Tag}
    (hrun : (findOrCreateTag name none).runOn s = (.ok tag, t)) : TagName.normalize name ≠ "" ∧
      (t = s ∨ s.heldElsewhere = false ∧ (Value.integer s.categories.generalCode).fits) := by
  rw [findOrCreateTag] at hrun
  dsimp only at hrun
  split at hrun
  · cases hrun
  next hnonempty =>
    refine ⟨by simpa [String.isEmpty_iff] using hnonempty, ?_⟩
    obtain ⟨found, m, hread, hrest⟩ := runOn_bind_eq_ok.1 hrun
    obtain rfl := (reads_getTag _).eq_of_runOn hread
    cases found with
    | some tag => exact Or.inl (Prod.mk.inj hrest).2.symm
    | none =>
      rw [runOn_bind_of_ok (runOn_get _)] at hrest
      obtain ⟨hwritable, -⟩ := runOn_write_eq_ok hrest
      exact Or.inr ⟨hwritable.free, by simpa using hwritable.values⟩

/-! ## Changes that leave nothing behind -/

/-- A post is made with all its tags or not at all. -/
theorem spares_createPost (draft : PostDraft) (names : List String) :
    Spares (createPost draft names) :=
  spares_atomic (setting_creation draft names)

/-- Tags are put on all posts of another or not at all. -/
theorem spares_addTagsToPostsWith (antecedent : String) (names : List String) :
    Spares (addTagsToPostsWith antecedent names) := by
  refine Spares.after_reads (reads_getTag antecedent) fun found => ?_
  cases found with
  | none => exact (reads_pure _).spares
  | some tag =>
    refine Spares.after_reads (reads_postIdsWithTag _) fun postIds =>
      Spares.ite (reads_pure _).spares ?_
    exact (spares_atomic (setting_extension tag.id names postIds)).then_pure _

/-- A tag is replaced on all posts or, if that fails, on none, and then the other tag is not made. -/
theorem contents_of_runOn_replaceTagOnPosts_eq_error {oldName newName : String}
    (hc : s.contents.TagRules) (hwhole : s.contents.missing = []) (hfit : s.contents.TagsFit 1)
    (hposts : ∀ p ∈ s.contents.posts, (Value.integer p.id).fits)
    (hrun : (replaceTagOnPosts oldName newName).runOn s = (.error e, t)) :
    t.contents = s.contents := by
  rcases runOn_bind_eq_error.1 hrun with hread | ⟨found, m, hread, hrest⟩
  · exact (reads_getTag oldName).spares s e t hread
  obtain rfl := (reads_getTag oldName).eq_of_runOn hread
  cases found with
  | none => cases hrest
  | some old =>
    rcases runOn_bind_eq_error.1 hrest with hmade | ⟨new, m', hmade, hblock⟩
    · rw [runOn_findOrCreateTag_eq_error hmade]
    · obtain ⟨hname, rfl | ⟨hfree, hgeneral⟩⟩ := runOn_findOrCreateTag_eq_ok hmade
      · refine Spares.after_reads (reads_postIdsWithTag old.name) (fun postIds =>
          Spares.ite (reads_pure _).spares ?_) m' e t hblock
        exact (spares_atomic (setting_replacement old.id new.id postIds)).then_pure _
      · -- A tag could be made, so the rest could be done as well.
        obtain ⟨n, u, hok, -⟩ := attains_replaceTagOnPosts_of_fits oldName hwhole hc hname hgeneral
          hfit hposts m (.refl hfree) rfl
        rw [hok] at hrun
        cases hrun

section Removing

variable {c : Contents} {s₀ : Store}

/-- Tags are taken off a post if statements can take its id and those of the tags. -/
theorem attains_removeEach (hwhole : c.missing = []) (htags : ∀ t ∈ c.tags, (Value.integer t.id).fits)
    (hpost : (Value.integer postId).fits) (names : List String) :
    Attains s₀ c (removeEach postId names) fun _ d => d.missing = [] := by
  induction names generalizing c with
  | nil => exact attains_pure hwhole
  | cons name rest ih =>
    refine (attains_read hwhole rfl _).bind ?_
    rintro found d ⟨hfound, rfl⟩
    cases found with
    | none => exact ih hwhole htags
    | some tag =>
      have htag : (Value.integer tag.id).fits := htags tag (List.mem_of_find?_eq_some hfound.symm)
      refine (attains_writeReferring hwhole (by simp [hpost, htag]) rfl).bind ?_
      rintro removed b ⟨-, rfl⟩
      have hafter {b : Contents} (hwhole : b.missing = [])
          (htags : ∀ t ∈ b.tags, (Value.integer t.id).fits) :
          Attains s₀ b (removeEach postId rest >>= fun more => pure (if removed then more + 1 else more))
            fun _ d => d.missing = [] :=
        (ih hwhole htags).bind fun _ _ hd => attains_pure hd
      refine Attains.ite (fun _ => ?_) fun _ => hafter hwhole htags
      refine Attains.bind (attains_write (by exact hwhole) rfl rfl) ?_
      rintro ⟨⟩ b ⟨-, rfl⟩
      refine hafter hwhole fun t ht => ?_
      obtain ⟨u, hu, rfl⟩ := List.mem_map.1 ht
      have hu' := htags u hu
      split
      · exact hu'
      · exact hu'

/-- Nothing is taken off a post if no statement can do that. -/
theorem runOn_removeEach_of_not_writable
    (h : ¬ (s.heldElsewhere = false ∧ (Value.integer postId).fits)) (names : List String) :
    ∃ r, (removeEach postId names).runOn s = (r, s) ∧ ∀ n, r = .ok n → n = 0 := by
  have hfailed (e : Failure) : ∀ n, (.error e : Except Failure Nat) = .ok n → n = 0 := by
    intro n hn
    cases hn
  induction names with
  | nil => exact ⟨.ok 0, rfl, fun n hn => (Except.ok.inj hn).symm⟩
  | cons name rest ih =>
    rw [removeEach]
    rcases hread : (getTag (TagName.normalize name)).runOn s with ⟨e | found, m⟩
    · obtain rfl := (reads_getTag _).eq_of_runOn hread
      exact ⟨.error e, runOn_bind_of_error hread, hfailed e⟩
    obtain rfl := (reads_getTag _).eq_of_runOn hread
    rw [runOn_bind_of_ok hread]
    cases found with
    | none => exact ih
    | some tag =>
      rcases runOn_writeReferring .taggings [.integer postId, .integer tag.id]
        (fun c => .ok (c.removeTagging ⟨postId, tag.id⟩)) m with ⟨hwritable, -⟩ | ⟨e, he⟩
      · have hvalues := hwritable.values
        simp only [List.all_cons, Bool.and_eq_true] at hvalues
        exact absurd ⟨hwritable.free, hvalues.1⟩ h
      · exact ⟨.error e, runOn_bind_of_error he, hfailed e⟩

/-- Tags are taken off a post or, if that fails, all of them stay. -/
theorem contents_of_runOn_removePostTags_eq_error {names : List String}
    (hwhole : s.contents.missing = []) (htags : ∀ t ∈ s.contents.tags, (Value.integer t.id).fits)
    (hrun : (removePostTags postId names).runOn s = (.error e, t)) : t.contents = s.contents := by
  by_cases h : s.heldElsewhere = false ∧ (Value.integer postId).fits
  · have hsucceeds : Attains s s.contents (removePostTags postId names) fun _ _ => True := by
      refine (attains_removeEach hwhole htags h.2 names).bind fun n d hd => ?_
      refine Attains.ite (fun _ => ?_) fun _ => attains_pure trivial
      refine (attains_touchPosts hd (by simpa using h.2)).bind fun _ _ _ => attains_pure trivial
    obtain ⟨n, u, hok, -⟩ := hsucceeds s (.refl h.1) rfl
    rw [hok] at hrun
    cases hrun
  · obtain ⟨r, hnothing, hzero⟩ := runOn_removeEach_of_not_writable h names
    rcases runOn_bind_eq_error.1 hrun with hremove | ⟨n, m, hremove, htouch⟩
    · obtain ⟨-, rfl⟩ := Prod.mk.inj (hnothing.symm.trans hremove)
      rfl
    · -- nothing was taken off, so the post is not stamped, and this does not fail
      obtain ⟨hr, rfl⟩ := Prod.mk.inj (hnothing.symm.trans hremove)
      obtain rfl := hzero n hr
      cases htouch

end Removing

/-! ## What putting tags on a post leaves behind -/

/-- What putting the first of some names on a post does: it fails before a tag is made, or after that, or
it goes on with the others, and if a tagging is new the post can be stamped. -/
theorem runOn_addEach_cons (postId : Int) (name : String) (s : Store) :
    (∃ e, ∀ rest, (addEach postId (name :: rest)).runOn s = (.error e, s)) ∨
    (∃ e tag m, (findOrCreateTag name none).runOn s = (.ok tag, m) ∧
      ∀ rest, (addEach postId (name :: rest)).runOn s = (.error e, m)) ∨
    ∃ added m, (added = true → Writable [.posts] [.integer postId] m) ∧
      ∀ rest, (addEach postId (name :: rest)).runOn s =
        match (addEach postId rest).runOn m with
        | (.ok more, t) => (.ok (if added then more + 1 else more), t)
        | (.error e, t) => (.error e, t) := by
  rcases hmade : (findOrCreateTag name none).runOn s with ⟨e | tag, m⟩
  · obtain rfl := runOn_findOrCreateTag_eq_error hmade
    exact Or.inl ⟨e, fun rest => runOn_bind_of_error hmade⟩
  rcases hadded : (addTagging postId tag.id).runOn m with ⟨e | added, m'⟩
  · obtain rfl := runOn_writeReferring_eq_error hadded
    refine Or.inr (Or.inl ⟨e, tag, m', rfl, fun rest => ?_⟩)
    rw [addEach, runOn_bind_of_ok hmade, runOn_bind_of_error hadded]
  obtain ⟨hwritable, d, hd, hm'⟩ := runOn_writeReferring_eq_ok hadded
  have hmissing : d.missing = m.contents.missing := by
    obtain ⟨-, -, rfl⟩ | ⟨-, -, -, -, rfl⟩ := addTagging_eq_ok hd <;> rfl
  refine Or.inr (Or.inr ?_)
  cases added with
  | false =>
    refine ⟨false, m', fun h => absurd h (by simp), fun rest => ?_⟩
    rw [addEach, runOn_bind_of_ok hmade, runOn_bind_of_ok hadded, if_neg (by simp), runOn_bind]
    rcases (addEach postId rest).runOn m' with ⟨_ | _, _⟩ <;> rfl
  | true =>
    have htags : Writable [.tags] [] m' := hm' ▸ writable_tags_of_taggings hwritable hmissing
    have hposts : Writable [.posts] [.integer postId] m := by
      have hvalues := hwritable.values
      simp only [List.all_cons, Bool.and_eq_true] at hvalues
      exact ⟨⟨fun u hu => hwritable.tables u (by simp_all [Table.parents]), by simp [hvalues.1]⟩,
        hwritable.free⟩
    have hafter : Writable [.posts] [.integer postId] m' := by
      rw [hm']
      exact hposts.congr rfl hmissing
    have hallowed : m'.isRefused .absent = false := (isRefused_absent m').trans htags.free
    refine ⟨true, { m' with contents := m'.contents.shiftCount tag.id 1 },
      fun _ => hafter.congr rfl rfl, fun rest => ?_⟩
    rw [addEach, runOn_bind_of_ok hmade, runOn_bind_of_ok hadded, if_pos rfl,
      runOn_bind_of_ok (runOn_shiftPostCount_of_allowed htags hallowed tag.id 1), runOn_bind]
    generalize (addEach postId rest).runOn _ = r
    rcases r with ⟨_ | _, _⟩ <;> rfl

/-- What is left behind where putting names on a post fails: the names before the one that is refused are
on the post, and the tag of the latter may be made. -/
def LeftBehind (postId : Int) (names : List String) (s t : Store) : Prop :=
  ∃ done name rest k m, names = done ++ name :: rest ∧ (addEach postId done).runOn s = (.ok k, m) ∧
    (t = m ∨ ∃ tag, (findOrCreateTag name none).runOn m = (.ok tag, t))

/-- Putting names on a post one after the other leaves those behind that come before a failure. -/
theorem leftBehind_of_addEach {names : List String}
    (hrun : (addEach postId names).runOn s = (.error e, t)) : LeftBehind postId names s t := by
  induction names generalizing s with
  | nil => cases hrun
  | cons name rest ih =>
    obtain ⟨e', he⟩ | ⟨e', tag, m, hmade, he⟩ | ⟨added, m, -, hgoes⟩ := runOn_addEach_cons postId name s
    · obtain ⟨-, rfl⟩ := Prod.mk.inj ((he rest).symm.trans hrun)
      exact ⟨[], name, rest, 0, s, rfl, rfl, Or.inl rfl⟩
    · obtain ⟨-, rfl⟩ := Prod.mk.inj ((he rest).symm.trans hrun)
      exact ⟨[], name, rest, 0, s, rfl, rfl, Or.inr ⟨tag, hmade⟩⟩
    · rw [hgoes] at hrun
      rcases hrest : (addEach postId rest).runOn m with ⟨e' | more, u⟩
      · rw [hrest] at hrun
        obtain ⟨-, rfl⟩ := Prod.mk.inj hrun
        obtain ⟨done, other, after, k, v, hnames, hdone, hend⟩ := ih (hrest.trans hrun)
        refine ⟨name :: done, other, after, if added then k + 1 else k, v, ?_, ?_, hend⟩
        · rw [hnames, List.cons_append]
        · rw [hgoes, hdone]
      · rw [hrest] at hrun
        cases hrun

/-- A post that has gained a tag can be stamped. -/
theorem writable_of_addEach {names : List String} {k : Nat}
    (hrun : (addEach postId names).runOn s = (.ok k, t)) (hk : 0 < k) :
    Writable [.posts] [.integer postId] t := by
  induction names generalizing s k with
  | nil =>
    obtain ⟨hzero, -⟩ := Prod.mk.inj hrun
    cases hzero
    exact absurd hk (Nat.lt_irrefl 0)
  | cons name rest ih =>
    obtain ⟨e', he⟩ | ⟨e', tag, m, -, he⟩ | ⟨added, m, hadded, hgoes⟩ := runOn_addEach_cons postId name s
    · cases congrArg Prod.fst ((he rest).symm.trans hrun)
    · cases congrArg Prod.fst ((he rest).symm.trans hrun)
    · rw [hgoes] at hrun
      rcases hrest : (addEach postId rest).runOn m with ⟨e' | more, u⟩
      · rw [hrest] at hrun
        cases congrArg Prod.fst hrun
      · rw [hrest] at hrun
        obtain ⟨hmore, rfl⟩ := Prod.mk.inj hrun
        cases added with
        | false =>
          obtain rfl := Except.ok.inj hmore
          exact ih hrest hk
        | true =>
          have hsame : Contents.IgnoresTagging fun c => c.missing = m.contents.missing :=
            fun _ _ _ _ _ h => h
          have hkeeps := keeps_addEach_of_names hsame.seesTagNames postId rest
          exact (hadded rfl).congr (hkeeps.setting_of_runOn hrest) (hkeeps.contents_of_runOn rfl hrest)

/-- Posts are stamped if their table can be changed. -/
theorem runOn_touchPosts (ids : List Int) (h : Writable [.posts] (ids.map .integer) s) :
    (touchPosts ids).runOn s = (.ok (), { s with contents := s.contents.touch ids s.stamp }) := by
  rw [touchPosts, runOn_bind_of_ok (runOn_get s)]
  exact runOn_write_of_writable h _

/-- Putting tags on a post that fails leaves those behind that come before the failure. -/
theorem leftBehind_of_addPostTags {names : List String}
    (hrun : (addPostTags postId names).runOn s = (.error e, t)) : LeftBehind postId names s t := by
  rcases runOn_bind_eq_error.1 hrun with hadd | ⟨k, m, hadd, htouch⟩
  · exact leftBehind_of_addEach hadd
  · rw [touchIfChanged] at htouch
    split at htouch
    next hk =>
      have hstamped := runOn_touchPosts [postId] (writable_of_addEach hadd hk)
      rw [runOn_bind_of_ok hstamped] at htouch
      cases htouch
    next => cases htouch

/-! ## All changes -/

/-- A change of posts, tags, pools, favourites or votes. -/
inductive Change where
  | createPost (draft : PostDraft) (names : List String)
  | addPostTags (postId : Int) (names : List String)
  | removePostTags (postId : Int) (names : List String)
  | replaceTagOnPosts (oldName newName : String)
  | addTagsToPostsWith (antecedent : String) (names : List String)
  | createPool (name : String) (postIds : List Int) (category : String)
  | addFavorite (userId postId : Int)
  | addVote (userId postId score : Int)

/-- The work of a change, without its result. -/
def Change.work : Change → Work Unit
  | .createPost draft names => Store.createPost draft names >>= fun _ => return ()
  | .addPostTags postId names => Store.addPostTags postId names >>= fun _ => return ()
  | .removePostTags postId names => Store.removePostTags postId names >>= fun _ => return ()
  | .replaceTagOnPosts oldName newName => Store.replaceTagOnPosts oldName newName >>= fun _ => return ()
  | .addTagsToPostsWith antecedent names =>
    Store.addTagsToPostsWith antecedent names >>= fun _ => return ()
  | .createPool name postIds category => Store.createPool name postIds category >>= fun _ => return ()
  | .addFavorite userId postId => Store.addFavorite userId postId
  | .addVote userId postId score => Store.addVote userId postId score

/-- Dropping the result of work keeps its failures. -/
theorem runOn_eq_error_of_dropped {α : Type} {w : Work α}
    (hrun : (w >>= fun _ => (pure () : Work Unit)).runOn s = (.error e, t)) : w.runOn s = (.error e, t) := by
  rcases runOn_bind_eq_error.1 hrun with h | ⟨a, m, -, h⟩
  · exact h
  · cases h

/-- On a store that keeps its rules, with all tables and with ids that statements can take, a change that
fails leaves all tables as they were, inside and outside of transactions, unless it puts tags on a post:
that leaves the tags behind that come before the failure. -/
theorem contents_of_failed_change (hc : s.contents.TagRules) (hwhole : s.contents.missing = [])
    (hfit : s.contents.TagsFit 1) (hposts : ∀ p ∈ s.contents.posts, (Value.integer p.id).fits)
    (change : Change) (hrun : change.work.runOn s = (.error e, t)) :
    t.contents = s.contents ∨
      ∃ postId names, change = .addPostTags postId names ∧ LeftBehind postId names s t := by
  cases change with
  | createPost draft names =>
    exact Or.inl (spares_createPost draft names s e t (runOn_eq_error_of_dropped hrun))
  | addPostTags postId names =>
    exact Or.inr ⟨postId, names, rfl, leftBehind_of_addPostTags (runOn_eq_error_of_dropped hrun)⟩
  | removePostTags postId names =>
    exact Or.inl (contents_of_runOn_removePostTags_eq_error hwhole hfit.ids
      (runOn_eq_error_of_dropped hrun))
  | replaceTagOnPosts oldName newName =>
    exact Or.inl (contents_of_runOn_replaceTagOnPosts_eq_error hc hwhole hfit hposts
      (runOn_eq_error_of_dropped hrun))
  | addTagsToPostsWith antecedent names =>
    exact Or.inl (spares_addTagsToPostsWith antecedent names s e t (runOn_eq_error_of_dropped hrun))
  | createPool name postIds category =>
    exact Or.inl (spares_createPool name postIds category s e t (runOn_eq_error_of_dropped hrun))
  | addFavorite userId postId => exact Or.inl (spares_addFavorite userId postId s e t hrun)
  | addVote userId postId score => exact Or.inl (spares_addVote userId postId score s e t hrun)

/-- Making a post with a tag and a blank name fails and leaves nothing behind. -/
theorem contents_of_failed_change_createPost :
    let s : Store := .ofContents oneCatContents ⟨0, 0⟩ .standard
    ∃ e t, (Change.createPost {} ["dog", ""]).work.runOn s = (.error e, t) ∧
      t.contents = s.contents := by
  intro s
  have hfails : ((Change.createPost {} ["dog", ""]).work.runOn s).1 =
      .error (.badValue "Tag name must not be blank") := by
    decide +kernel
  refine ⟨_, _, Prod.ext hfails rfl, ?_⟩
  obtain hsame | ⟨postId, names, hchange, -⟩ := contents_of_failed_change (s := s)
    tagRules_oneCatContents rfl ⟨by decide, by decide, by decide⟩ (by decide)
    (.createPost {} ["dog", ""]) (Prod.ext hfails rfl)
  · exact hsame
  · cases hchange

/-- Putting a tag and a blank name on a post fails, and leaves the tag on the post. -/
theorem addPostTags_leaves_tag :
    let s : Store := .ofContents oneCatContents ⟨0, 0⟩ .standard
    ((Change.addPostTags 1 ["dog", ""]).work.runOn s).1 =
        .error (.badValue "Tag name must not be blank") ∧
      s.contents.tagNames 1 = {"cat"} ∧
      ((Change.addPostTags 1 ["dog", ""]).work.runOn s).2.contents.tagNames 1 = {"cat", "dog"} :=
  ⟨by decide +kernel, by decide +kernel, by decide +kernel⟩

end Imageboard.Store
