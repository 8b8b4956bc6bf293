import Imageboard.Proofs.Store.Collecting
import Imageboard.Proofs.Store.Leading

/-!
# Work that spares the contents when it fails

A single statement that fails has changed nothing, and a block takes back what its body did. So work
that changes the contents in one statement or in one block, with nothing but readings before it, leaves
them as they were if it fails. Pools, favourites and votes are made in this way.
-/

namespace Imageboard

namespace Work

variable {α β : Type}

/-- Work that leaves the contents as they were if it fails. -/
def Spares (w : Work α) : Prop :=
  ∀ s e t, w.runOn s = (.error e, t) → t.contents = s.contents

/-- Work that leaves the store as it is spares the contents. -/
theorem Reads.spares {w : Work α} (h : Reads w) : Spares w :=
  fun _ _ _ hrun => congrArg Store.contents (h.eq_of_runOn hrun)

/-- A block spares the contents, because it takes back what its body did. -/
theorem spares_atomic {w : Work α} (hsetting : ∀ s, (w.runOn s).2.setting = s.setting) :
    Spares (atomic w) := by
  intro s e t hrun
  rw [runOn_atomic hsetting] at hrun
  rcases hbody : w.runOn s.setSavepoint with ⟨_ | a, m⟩
  · rw [hbody] at hrun
    obtain ⟨-, rfl⟩ := Prod.mk.inj hrun
    rfl
  · rw [hbody] at hrun
    cases hrun

/-- Readings before work that spares the contents change nothing about that. -/
theorem Spares.after_reads {x : Work α} {f : α → Work β} (hx : Reads x) (hf : ∀ a, Spares (f a)) :
    Spares (x >>= f) := by
  intro s e t hrun
  rcases runOn_bind_eq_error.1 hrun with hfirst | ⟨a, m, hfirst, hrest⟩
  · exact hx.spares s e t hfirst
  · rw [hf a m e t hrest, hx.eq_of_runOn hfirst]

/-- A plain result after work that spares the contents changes nothing about that. -/
theorem Spares.then_pure {x : Work α} (hx : Spares x) (f : α → β) :
    Spares (x >>= fun a => pure (f a)) := by
  intro s e t hrun
  rcases runOn_bind_eq_error.1 hrun with hfirst | ⟨a, m, -, hrest⟩
  · exact hx s e t hfirst
  · cases hrest

/-- A choice spares the contents if both branches do. -/
theorem Spares.ite {c : Prop} [Decidable c] {x y : Work α} (hx : Spares x) (hy : Spares y) :
    Spares (if c then x else y) := by
  split
  · exact hx
  · exact hy

/-- Whether a statement can be run does not depend on the records. -/
theorem Writable.congr {ts : List Table} {vs : List Value} {s t : Store} (h : Writable ts vs s)
    (hsetting : t.setting = s.setting) (hmissing : t.contents.missing = s.contents.missing) :
    Writable ts vs t where
  tables u hu := by simpa only [Contents.has, hmissing] using h.tables u hu
  values := h.values
  free := (congrArg Store.heldElsewhere hsetting).trans h.free

end Work

namespace Store

open Work

/-- What holds of all contents depends on no collection. -/
theorem ignoresCollections_trivially : Contents.IgnoresCollections fun _ => True :=
  fun _ _ _ _ _ _ _ => trivial

/-- A pool is made with all its posts or not at all. -/
theorem spares_createPool (name : String) (postIds : List Int) (category : String) :
    Spares (createPool name postIds category) :=
  spares_atomic (keeps_pooling ignoresCollections_trivially name category postIds).setting

/-- A favourite is added and counted or neither. -/
theorem spares_addFavorite (userId postId : Int) : Spares (addFavorite userId postId) :=
  spares_atomic (keeps_favoring ignoresCollections_trivially userId postId).setting

/-- A vote is set and added to the score of the post or neither. -/
theorem spares_addVote (userId postId score : Int) : Spares (addVote userId postId score) :=
  spares_atomic (keeps_voting ignoresCollections_trivially userId postId score).setting

end Store

end Imageboard
