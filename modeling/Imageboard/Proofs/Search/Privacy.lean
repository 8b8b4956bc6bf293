import Imageboard.Proofs.Query.Voting
import Imageboard.Proofs.Search.Answering
import Imageboard.Proofs.Search.Rearranging
import Imageboard.Proofs.Text.Folding

/-!
# Private votes

What a viewer finds in a store is compared with what the viewer finds in the store with other votes. Of
all that searches read, two relations look at votes, and for a viewer who is not a moderator these ask
only for users that go by the viewer's name. So the votes of all others are private: whoever else votes,
and however, the viewer finds the same. The name is compared in lower case over all of Unicode, while
the table of users takes names for equal only up to the case of ASCII letters: this is why a viewer may
find the votes of a namesake, and why the main statement asks that there is none.
-/

namespace Imageboard

open Query

/-! ## Other votes -/

/-- The contents with other votes. -/
def Contents.withVotes (c : Contents) (votes : List Vote) : Contents :=
  { c with votes := votes }

/-- The store with other votes. -/
def Store.withVotes (s : Store) (votes : List Vote) : Store :=
  { s with contents := s.contents.withVotes votes }

/-- The searcher with other votes in the store. -/
def Searcher.withVotes (s : Searcher) (votes : List Vote) : Searcher :=
  { s with store := s.store.withVotes votes }

/-- Whether a user has the same votes among some votes as among others. -/
def User.VotesAlike (u : User) (votes votes' : List Vote) : Prop :=
  ∀ v : Vote, v.userId = u.id → (v ∈ votes ↔ v ∈ votes')

/-- The user whom the store knows by the name of a viewer. -/
def Viewer.caller? (viewer : Viewer) (c : Contents) : Option User :=
  viewer.userName.bind c.findUser?

/-- A name that the store takes for one of the viewer's is one of the viewer's. -/
theorem Viewer.isSelf_of_foldAscii_eq {viewer : Viewer} {name other : String}
    (h : Text.foldAscii other = Text.foldAscii name) (hself : viewer.isSelf name = true) :
    viewer.isSelf other = true := by
  unfold isSelf at hself ⊢
  rwa [Text.lowerString_eq_of_foldAscii_eq h]

namespace Search

variable {c : Contents} {viewer : Viewer} {votes : List Vote} {plan : Plan}

/-! ## Conditions -/

/-- A record of a user that is named in some way is of a user with that name. -/
theorem exists_of_isOfUser {name : String} {userId : Int} (h : isOfUser c (.text name) userId = true) :
    ∃ u ∈ c.users, u.id = userId ∧ Text.foldAscii u.name = Text.foldAscii name := by
  simpa [isOfUser, textOf?] using h

section Conditions

variable (hvotes : ∀ u ∈ c.users, viewer.isSelf u.name = true → u.VotesAlike c.votes votes)

include hvotes

/-- A post has the same votes of users that go by the name of the viewer. -/
theorem hasVote_withVotes {name : String} (hself : viewer.isSelf name = true) (p : Post)
    (wanted : Int → Bool) :
    hasVote (c.withVotes votes) p (.text name) wanted = hasVote c p (.text name) wanted := by
  have hmem (v : Vote) (hv : isOfUser c (.text name) v.userId = true) : v ∈ votes ↔ v ∈ c.votes := by
    obtain ⟨u, hu, hid, hname⟩ := exists_of_isOfUser hv
    exact (hvotes u hu (Viewer.isSelf_of_foldAscii_eq hname hself) v hid.symm).symm
  rw [Bool.eq_iff_iff, hasVote, hasVote, List.any_eq_true, List.any_eq_true]
  refine exists_congr fun v => and_congr_left fun h => ?_
  exact hmem v (Bool.and_eq_true_iff.1 h).2

/-- A predicate that looks at no votes but those of the viewer's name says the same about a post. -/
theorem truthOf_withVotes {predicate : Predicate} (h : predicate.Discreet viewer) (p : Post) :
    truthOf (c.withVotes votes) p predicate = truthOf c p predicate := by
  cases predicate with
  | relation relation value =>
    cases relation with
    | upvote =>
      obtain ⟨name, rfl, hself⟩ := h
      exact congrArg some (hasVote_withVotes hvotes hself p _)
    | downvote =>
      obtain ⟨name, rfl, hself⟩ := h
      exact congrArg some (hasVote_withVotes hvotes hself p _)
    | _ => rfl
  | flags columns value combine => cases combine <;> rfl
  | _ => rfl

/-- A plan that looks at no votes but those of the viewer's name selects the same posts. -/
theorem selects_withVotes (hplan : ∀ k ∈ plan.conditions, k.predicate.Discreet viewer) (p : Post) :
    selects (c.withVotes votes) plan p = selects c plan p := by
  have hconditions : plan.conditions.map (conditionTruth (c.withVotes votes) p) =
      plan.conditions.map (conditionTruth c p) := by
    apply List.map_congr_left
    intro k hk
    rw [conditionTruth, conditionTruth, truthOf_withVotes hvotes (hplan k hk)]
  rw [selects, selects, planTruth, planTruth, hconditions]
  rfl

/-- Such a plan has the same pages. -/
theorem selectedIds_withVotes (hplan : ∀ k ∈ plan.conditions, k.predicate.Discreet viewer)
    (limit : Option Int) (offset : Int) :
    selectedIds (c.withVotes votes) plan limit offset = selectedIds c plan limit offset := by
  have hrows : selectedRows (c.withVotes votes) plan = selectedRows c plan := by
    have hselects := funext fun r : Row => selects_withVotes hvotes hplan r.post
    rw [selectedRows, selectedRows, hselects]
    rfl
  rw [selectedIds, selectedIds, hrows]
  rfl

/-- Such a plan selects the same page, or is refused for the same reason. -/
theorem fst_runOn_selectPostIds_withVotes {s : Store} (hcontents : s.contents = c)
    (hplan : ∀ k ∈ plan.conditions, k.predicate.Discreet viewer) (limit : Option Int) (offset : Int) :
    ((selectPostIds plan limit offset).runOn (s.withVotes votes)).1 =
      ((selectPostIds plan limit offset).runOn s).1 := by
  subst hcontents
  have hids : selectedIds (s.withVotes votes).contents plan limit offset =
      selectedIds s.contents plan limit offset := selectedIds_withVotes hvotes hplan limit offset
  have htables (t : Table) : (s.withVotes votes).contents.has t = s.contents.has t := rfl
  rw [runOn_selectPostIds_of_same htables hids]

end Conditions

end Search

/-! ## Searchers -/

namespace SearchWork

variable {α β : Type}

/-- Whether some work of a searcher ends in the same way whatever the votes are, and leaves the same
searcher but for the votes. -/
def IgnoresVotes (w : SearchWork α) : Prop :=
  ∀ s votes, w.runOn (s.withVotes votes) = ((w.runOn s).1, (w.runOn s).2.withVotes votes)

/-- A plain result does not depend on the votes. -/
theorem ignoresVotes_pure (a : α) : IgnoresVotes (pure a) := fun _ _ => rfl

/-- A plain computation does not depend on the votes. -/
theorem ignoresVotes_lift (r : Except Failure α) : IgnoresVotes (lift r) := fun _ _ => rfl

/-- A change of what a searcher remembers does not depend on the votes. -/
theorem ignoresVotes_modify {f : Searcher → Searcher}
    (hf : ∀ s votes, f (s.withVotes votes) = (f s).withVotes votes) : IgnoresVotes (modify f) :=
  fun s votes => Prod.ext rfl (hf s votes)

/-- What goes on from the searcher does not depend on the votes if it goes on in the same way. -/
theorem ignoresVotes_get_bind {f : Searcher → SearchWork α}
    (hf : ∀ s votes, f (s.withVotes votes) = f s) (h : ∀ s, IgnoresVotes (f s)) :
    IgnoresVotes (get >>= f) := by
  intro s votes
  rw [runOn_bind_of_ok (runOn_get _), runOn_bind_of_ok (runOn_get _), hf]
  exact h s s votes

/-- A sequence of steps that do not depend on the votes does not either. -/
theorem IgnoresVotes.bind {x : SearchWork α} {f : α → SearchWork β} (hx : IgnoresVotes x)
    (hf : ∀ a, IgnoresVotes (f a)) : IgnoresVotes (x >>= f) := by
  intro s votes
  rw [runOn_bind, runOn_bind, hx s votes]
  rcases x.runOn s with ⟨e | a, t⟩
  · rfl
  · exact hf a t votes

/-- Reading anything but votes does not depend on them. -/
theorem ignoresVotes_read {ts : List Table} {vs : List Value} {f : Contents → α}
    (hf : ∀ c votes, f (Contents.withVotes c votes) = f c) :
    IgnoresVotes (ofWork (Work.read ts vs f)) := by
  intro s votes
  have hseen : f (s.withVotes votes).store.contents = f s.store.contents := hf s.store.contents votes
  rw [runOn_ofWork, runOn_ofWork, Work.runOn_read, Work.runOn_read, hseen]
  rfl

end SearchWork

namespace Searcher

open SearchWork

/-- What a name stands for does not depend on the votes. -/
theorem ignoresVotes_resolve (name : String) : IgnoresVotes (resolve name) := by
  apply (ignoresVotes_modify (by intro _ _; rfl)).bind
  intro _
  refine ignoresVotes_get_bind (fun _ _ => rfl) fun s => ?_
  cases s.aliases.find? name with
  | some target => exact ignoresVotes_pure _
  | none =>
    exact (ignoresVotes_read fun _ _ => rfl).bind fun _ =>
      (ignoresVotes_modify (by intro _ _; rfl)).bind fun _ => ignoresVotes_pure _

/-- What some names stand for does not depend on the votes. -/
theorem ignoresVotes_resolveEach (names : List String) : IgnoresVotes (resolveEach names) := by
  induction names with
  | nil => exact ignoresVotes_pure _
  | cons name rest ih =>
    exact (ignoresVotes_resolve name).bind fun _ => ih.bind fun _ => ignoresVotes_pure _

/-- The plan of a query does not depend on the votes. -/
theorem ignoresVotes_compile (config : Config) (viewer : Viewer) (query : String) :
    IgnoresVotes (compile config viewer query) := by
  refine ignoresVotes_get_bind (fun _ _ => rfl) fun _ => ?_
  exact (ignoresVotes_lift _).bind fun _ => (ignoresVotes_resolveEach _).bind fun _ =>
    ignoresVotes_lift _

/-! ## What others vote -/

variable {s : Searcher} {viewer : Viewer} {votes : List Vote}

/-- A viewer who is not a moderator finds the same whatever the votes of users are that do not go by the
name of the viewer. -/
theorem fst_runOn_search_withVotes (hmoderator : viewer.isModerator = false)
    (hvotes : ∀ u ∈ s.store.contents.users, viewer.isSelf u.name = true →
      u.VotesAlike s.store.contents.votes votes)
    (config : Config) (query : String) (limit : Option Int) (offset : Int) :
    ((search config viewer query limit offset).runOn (s.withVotes votes)).1 =
      ((search config viewer query limit offset).runOn s).1 := by
  have hstore := reads_compile config viewer query s
  rw [search, runOn_bind, runOn_bind, ignoresVotes_compile config viewer query s votes]
  rcases hcompile : (compile config viewer query).runOn s with ⟨e | plan, t⟩
  · rfl
  · rw [hcompile] at hstore
    have hplan : ∀ k ∈ plan.conditions, k.predicate.Discreet viewer :=
      discreet_of_compile hmoderator (of_runOn_compile hcompile)
    apply Search.fst_runOn_selectPostIds_withVotes hvotes (congrArg Store.contents hstore) hplan

/-- Votes are private: a viewer who is not a moderator finds the same, by plans and by searching, whatever
the votes of users are other than the one whom the store knows by the name of the viewer; unless another
user, with other votes, goes by that name in lower case. -/
theorem votes_private (hmoderator : viewer.isModerator = false)
    (hcaller : ∀ u, viewer.caller? s.store.contents = some u →
      u.VotesAlike s.store.contents.votes votes)
    (hnamesakes : ∀ u ∈ s.store.contents.users, viewer.isSelf u.name = true →
      viewer.caller? s.store.contents = some u ∨ u.VotesAlike s.store.contents.votes votes)
    (config : Config) (query : String) (limit : Option Int) (offset : Int) :
    (∀ resolve clock plan, Query.compile config resolve viewer clock query = .ok plan →
      ((Search.selectPostIds plan limit offset).runOn (s.store.withVotes votes)).1 =
        ((Search.selectPostIds plan limit offset).runOn s.store).1) ∧
    ((search config viewer query limit offset).runOn (s.withVotes votes)).1 =
      ((search config viewer query limit offset).runOn s).1 := by
  have hvotes : ∀ u ∈ s.store.contents.users, viewer.isSelf u.name = true →
      u.VotesAlike s.store.contents.votes votes :=
    fun u hu hself => (hnamesakes u hu hself).elim (hcaller u) id
  constructor
  · intro resolve clock plan hcompile
    exact Search.fst_runOn_selectPostIds_withVotes hvotes rfl (discreet_of_compile hmoderator hcompile)
      limit offset
  · exact fst_runOn_search_withVotes hmoderator hvotes config query limit offset

/-- Contents with three users, of whom two have names that differ in the case of a letter beyond ASCII,
and a post that the second of them has voted for. -/
def namesakeContents : Contents :=
  { Contents.empty with
    users := [⟨1, "émile", .null⟩, ⟨2, "Émile", .null⟩, ⟨3, "bob", .null⟩]
    posts := [PostDraft.toPost {} 1 .null]
    votes := [⟨1, 2, 1, .null⟩] }

/-- The first of three users cannot tell whether bob has voted, by asking for bob or otherwise. -/
theorem votes_private_bob :
    let s := Search.searcherOf namesakeContents
    let viewer := Viewer.user (some 1) (some "émile")
    let votes : List Vote := [⟨1, 2, 1, .null⟩, ⟨1, 3, -1, .null⟩]
    ((search .standard viewer "-downvote:bob" none 0).runOn (s.withVotes votes)).1 =
      ((search .standard viewer "-downvote:bob" none 0).runOn s).1 := by
  intro s viewer votes
  have hcaller : viewer.caller? s.store.contents = some ⟨1, "émile", .null⟩ := by decide +kernel
  have halike {u : User} (hid : u.id ≠ 3) : u.VotesAlike s.store.contents.votes votes := by
    intro v hv
    have hbob : v ≠ ⟨1, 3, -1, .null⟩ := by
      rintro rfl
      exact hid hv.symm
    change v ∈ [_] ↔ v ∈ [_, _]
    simp [hbob]
  refine (votes_private rfl ?_ ?_ .standard "-downvote:bob" none 0).2
  · intro u hu
    rw [hcaller] at hu
    obtain rfl := Option.some.inj hu
    exact halike (by decide)
  · have hothers : ∀ u ∈ s.store.contents.users, viewer.isSelf u.name = true → u.id ≠ 3 := by
      decide +kernel
    exact fun u hu hself => Or.inr (halike (hothers u hu hself))

/-- The same user can tell whether the second one has voted: a search compares their names in lower case,
in which they are one. -/
theorem search_namesake :
    let s := Search.searcherOf namesakeContents
    let viewer := Viewer.user (some 1) (some "émile")
    viewer.isModerator = false ∧ viewer.caller? s.store.contents = some ⟨1, "émile", .null⟩ ∧
      User.VotesAlike ⟨1, "émile", .null⟩ s.store.contents.votes [] ∧
      ((search .standard viewer "upvote:Émile" none 0).runOn s).1 = .ok [1] ∧
      ((search .standard viewer "upvote:Émile" none 0).runOn (s.withVotes [])).1 = .ok [] := by
  intro s viewer
  refine ⟨rfl, by decide +kernel, ?_, by decide +kernel, by decide +kernel⟩
  intro v hv
  change v ∈ [_] ↔ v ∈ []
  have hother : v ≠ ⟨1, 2, 1, .null⟩ := by
    rintro rfl
    cases hv
  simp [hother]

end Searcher

end Imageboard
