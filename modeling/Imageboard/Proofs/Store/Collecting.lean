import Imageboard.Proofs.Store.Keeping
import Imageboard.Store.Collections

/-!
# What work on pools, favourites and votes keeps

A pool, a favourite and a vote are each made in a block that changes the tables of these records and the
posts, and no others. So this work keeps every property of the contents that looks at none of them.
-/

namespace Imageboard

namespace Contents

variable {c d : Contents}

/-- A property of contents that does not depend on posts, pools, favourites and votes. -/
def IgnoresCollections (P : Contents → Prop) : Prop :=
  ∀ c posts pools poolPosts favorites votes, P c →
    P { c with
      posts := posts
      pools := pools
      poolPosts := poolPosts
      favorites := favorites
      votes := votes }

/-- A pool is added at the end. -/
theorem addPool_eq_ok {name category : String} {id : Int} (h : c.addPool name category = .ok (id, d)) :
    d = { c with pools := c.pools ++ [⟨id, name, category, 0⟩] } := by
  rw [addPool] at h
  split at h
  · contradiction
  · split at h
    · contradiction
    · obtain ⟨rfl, rfl⟩ := Prod.mk.inj (Except.ok.inj h)
      rfl

/-- A post is put at a place of a pool at the end of all places. -/
theorem addPoolPost_eq_ok {p : PoolPost} (h : c.addPoolPost p = .ok ((), d)) :
    d = { c with poolPosts := c.poolPosts ++ [p] } := by
  dsimp only [addPoolPost, requireReferences] at h
  split at h
  · contradiction
  · split at h
    · obtain ⟨-, rfl⟩ := Prod.mk.inj (Except.ok.inj h)
      rfl
    · contradiction

/-- A favourite is there already, or it is added at the end and refers to a user and a post. -/
theorem addFavorite_eq_ok {userId postId : Int} {stamp : Value} {added : Bool}
    (h : c.addFavorite userId postId stamp = .ok (added, d)) :
    (added = false ∧ d = c ∧ ∃ f ∈ c.favorites, f.userId = userId ∧ f.postId = postId) ∨
      (added = true ∧ (∀ f ∈ c.favorites, f.userId = userId → f.postId ≠ postId) ∧
        c.refersToUser userId ∧ c.refersToPost postId ∧
        d = { c with favorites :=
          c.favorites ++ [⟨nextId (c.favorites.map (·.id)), userId, postId, stamp⟩] }) := by
  rw [addFavorite] at h
  split at h
  next hthere =>
    obtain ⟨rfl, rfl⟩ := Prod.mk.inj (Except.ok.inj h)
    exact Or.inl ⟨rfl, rfl, by simpa using hthere⟩
  next hnew =>
    dsimp only [requireReferences] at h
    split at h
    next hrefers =>
      obtain ⟨rfl, rfl⟩ := Prod.mk.inj (Except.ok.inj h)
      obtain ⟨huser, hpost⟩ := Bool.and_eq_true_iff.1 hrefers
      exact Or.inr ⟨rfl, by simpa using hnew, huser, hpost, rfl⟩
    next => contradiction

/-- A vote takes the place of an earlier one and refers to a post and a user. -/
theorem setVote_eq_ok {postId userId score : Int} {stamp : Value}
    (h : c.setVote postId userId score stamp = .ok ((), d)) :
    c.refersToPost postId ∧ c.refersToUser userId ∧
      d = { c with votes :=
        (c.votes.filter fun w => !(w.postId = postId && w.userId = userId)) ++
          [⟨postId, userId, score, stamp⟩] } := by
  dsimp only [setVote, requireReferences] at h
  split at h
  next hrefers =>
    obtain ⟨-, rfl⟩ := Prod.mk.inj (Except.ok.inj h)
    obtain ⟨hpost, huser⟩ := Bool.and_eq_true_iff.1 hrefers
    exact ⟨hpost, huser, rfl⟩
  next => contradiction

/-- The score of a post becomes the sum of its votes; where there is no such post nothing changes. -/
theorem tallyVotes_eq_ok {postId : Int} (h : c.tallyVotes postId = .ok ((), d)) :
    (∃ sum, sumScores? 0 (c.scoresOf postId) = some sum ∧
        d = c.mapPosts (·.id = postId) fun p => { p with score := sum }) ∨
      (∀ p ∈ c.posts, p.id ≠ postId) ∧ d = c := by
  rw [tallyVotes] at h
  split at h
  · split at h
    next sum hsum =>
      obtain ⟨-, rfl⟩ := Prod.mk.inj (Except.ok.inj h)
      exact Or.inl ⟨sum, hsum, rfl⟩
    next => contradiction
  next hnone =>
    obtain ⟨-, rfl⟩ := Prod.mk.inj (Except.ok.inj h)
    exact Or.inr ⟨by simpa using hnone, rfl⟩

end Contents

namespace Store

open Work

section Collections

variable {P : Contents → Prop} (hP : Contents.IgnoresCollections P)
include hP

/-- Filling a pool keeps a property of other tables. -/
theorem keeps_fillPool (poolId position : Int) (postIds : List Int) :
    Keeps P (fillPool poolId position postIds) := by
  induction postIds generalizing position with
  | nil => exact keeps_pure _
  | cons postId rest ih =>
    refine (keeps_writeReferring fun c _ d hc hd => ?_).bind fun _ => ih (position + 1)
    rw [Contents.addPoolPost_eq_ok hd]
    exact hP c _ _ _ _ _ hc

/-- The block that makes a pool keeps a property of other tables. -/
theorem keeps_pooling (name category : String) (postIds : List Int) :
    Keeps P (do
      let id ← write [.pools] [] (Contents.addPool (TagName.normalize name) category)
      requireTables [.poolPosts]
      requireParents .poolPosts
      fillPool id 0 postIds
      return id) := by
  refine (keeps_write fun c id d hc hd => ?_).bind fun id =>
    (reads_requireTables _).keeps.bind fun _ => (reads_requireParents _).keeps.bind fun _ =>
      (keeps_fillPool hP id 0 postIds).bind fun _ => keeps_pure _
  rw [Contents.addPool_eq_ok hd]
  exact hP c _ _ _ _ _ hc

/-- Making a pool keeps a property of other tables. -/
theorem keeps_createPool (name : String) (postIds : List Int) (category : String) :
    Keeps P (createPool name postIds category) :=
  (keeps_pooling hP name category postIds).atomic

/-- The block that adds and counts a favourite keeps a property of other tables. -/
theorem keeps_favoring (userId postId : Int) :
    Keeps P (do
      let stamp := (← get).stamp
      let added ← writeReferring .favorites [.integer userId, .integer postId]
        (Contents.addFavorite userId postId stamp)
      if added then
        write [.posts] [.integer postId] fun c => .ok ((), c.countFavorite postId)) := by
  refine keeps_get.bind fun s => (keeps_writeReferring fun c added d hc hd => ?_).bind fun _ =>
    Keeps.guarded (keeps_write fun c _ d hc hd => ?_)
  · obtain ⟨-, rfl, -⟩ | ⟨-, -, -, -, rfl⟩ := Contents.addFavorite_eq_ok hd
    · exact hc
    · exact hP c _ _ _ _ _ hc
  · obtain ⟨-, rfl⟩ := Prod.mk.inj (Except.ok.inj hd)
    exact hP c _ _ _ _ _ hc

/-- Favouring a post keeps a property of other tables. -/
theorem keeps_addFavorite (userId postId : Int) : Keeps P (addFavorite userId postId) :=
  (keeps_favoring hP userId postId).atomic

/-- The block that sets and tallies a vote keeps a property of other tables. -/
theorem keeps_voting (userId postId score : Int) :
    Keeps P (do
      let stamp := (← get).stamp
      writeReferring .votes [.integer postId, .integer userId, .integer score]
        (Contents.setVote postId userId score stamp)
      write [.posts, .votes] [.integer postId] (Contents.tallyVotes postId)) := by
  refine keeps_get.bind fun s => (keeps_writeReferring fun c _ d hc hd => ?_).bind fun _ =>
    keeps_write fun c _ d hc hd => ?_
  · obtain ⟨-, -, rfl⟩ := Contents.setVote_eq_ok hd
    exact hP c _ _ _ _ _ hc
  · obtain ⟨_, -, rfl⟩ | ⟨-, rfl⟩ := Contents.tallyVotes_eq_ok hd
    · exact hP c _ _ _ _ _ hc
    · exact hc

/-- Voting on a post keeps a property of other tables. -/
theorem keeps_addVote (userId postId score : Int) : Keeps P (addVote userId postId score) :=
  (keeps_voting hP userId postId score).atomic

end Collections

end Store

end Imageboard
