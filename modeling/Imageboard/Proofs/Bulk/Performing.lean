import Imageboard.Proofs.Search.Compiling
import Imageboard.Proofs.Search.Rearranging
import Imageboard.Proofs.Tagging.Counting

/-!
# How a mass update is done

A mass update makes its plan and finds out what it changes before it begins its transaction, and the
posts are selected in the transaction before any of them is changed. So when it succeeds, its steps can
be told apart: the plan, the changes and the posts are those of the store before it, and the store after
it has the contents that changing these posts leaves. When it fails, nothing has changed.
-/

namespace Imageboard.Bulk

open SearchWork

variable {config : Config} {job : Job} {w t : Searcher}

/-- The steps of a mass update that succeeds, with what each of them finds. The changes are found out
by the searcher that making the plan leaves, and the posts are changed in the transaction. -/
structure Performed (config : Config) (job : Job) (w t : Searcher) (plan : Query.Plan)
    (changes : TagChanges) (postIds : List Int) : Prop where
  planned : ∃ u v, (Searcher.compile config (viewerOf job) job.query).runOn w = (.ok plan, u) ∧
    (tagChanges config job).runOn u = (.ok changes, v)
  selected : (Search.selectPostIds plan none 0).runOn w.store = (.ok postIds, w.store)
  changed : ∃ m, (retag changes postIds).runOn w.store.begun = (.ok (), m) ∧
    t.store.contents = m.contents

/-- A transaction that has just begun sees the posts that the store before it has. -/
theorem runOn_selectPostIds_begun (plan : Query.Plan) (s : Store) :
    (Search.selectPostIds plan none 0).runOn s.begun =
      (((Search.selectPostIds plan none 0).runOn s).1, s.begun) :=
  Search.runOn_selectPostIds_of_same (fun _ => rfl) rfl

/-- What a mass update does in its transaction succeeds if its steps do. -/
theorem runOn_retagSelected_eq_ok {plan : Query.Plan} {changes : TagChanges} {s m : Store} {n : Int}
    (hrun : (retagSelected plan changes).runOn s.begun = (.ok n, m)) :
    ∃ postIds : List Int, (Search.selectPostIds plan none 0).runOn s = (.ok postIds, s) ∧
      (retag changes postIds).runOn s.begun = (.ok (), m) ∧ n = postIds.length := by
  obtain ⟨postIds, m', hselect, hrun⟩ := Work.runOn_bind_eq_ok.1 hrun
  rw [runOn_selectPostIds_begun] at hselect
  obtain ⟨hids, rfl⟩ := Prod.mk.inj hselect
  obtain ⟨_, m', hretag, hdone⟩ := Work.runOn_bind_eq_ok.1 hrun
  obtain ⟨hn, rfl⟩ := Prod.mk.inj hdone
  exact ⟨postIds, Prod.ext hids (Search.reads_selectPostIds plan none 0 s), hretag,
    (Except.ok.inj hn).symm⟩

/-- A mass update that succeeds has gone through its steps, and returns the number of posts. -/
theorem exists_performed {n : Int} (hrun : (perform config job).runOn w = (.ok n, t)) :
    w.store.Idle ∧ ∃ plan changes, ∃ postIds : List Int,
      Performed config job w t plan changes postIds ∧ n = postIds.length := by
  obtain ⟨plan, u, hplan, hrun⟩ := runOn_bind_eq_ok.1 hrun
  obtain ⟨changes, v, hchanges, hrun⟩ := runOn_bind_eq_ok.1 hrun
  have hstore : v.store = w.store := ((reads_tagChanges config job).store_eq hchanges).trans
    ((Searcher.reads_compile _ _ _).store_eq hplan)
  obtain ⟨hwork, rfl⟩ := Prod.mk.inj ((runOn_ofWork _ v).symm.trans hrun)
  rw [hstore] at hwork ⊢
  obtain ⟨hidle, m, hselected, hcontents⟩ := Work.runOn_inTransaction_eq_ok
    (fun _ => setting_retagSelected plan changes) (Prod.ext hwork rfl)
  obtain ⟨postIds, hselect, hretag, hn⟩ := runOn_retagSelected_eq_ok hselected
  exact ⟨hidle, plan, changes, postIds, ⟨⟨u, v, hplan, hchanges⟩, hselect, m, hretag, hcontents⟩, hn⟩

/-- A mass update that fails leaves the contents as they were. -/
theorem contents_of_perform_eq_error {e : Failure}
    (hrun : (perform config job).runOn w = (.error e, t)) :
    t.store.contents = w.store.contents := by
  rw [perform, runOn_bind] at hrun
  rcases hplan : (Searcher.compile config (viewerOf job) job.query).runOn w with ⟨_ | plan, u⟩ <;>
    rw [hplan] at hrun <;> dsimp only at hrun
  · rw [← (Prod.mk.inj hrun).2, (Searcher.reads_compile _ _ _).store_eq hplan]
  rw [runOn_bind] at hrun
  rcases hchanges : (tagChanges config job).runOn u with ⟨_ | changes, v⟩ <;>
    rw [hchanges] at hrun <;> dsimp only at hrun
  · rw [← (Prod.mk.inj hrun).2, (reads_tagChanges config job).store_eq hchanges,
      (Searcher.reads_compile _ _ _).store_eq hplan]
  have hstore : v.store = w.store := ((reads_tagChanges config job).store_eq hchanges).trans
    ((Searcher.reads_compile _ _ _).store_eq hplan)
  obtain ⟨hwork, rfl⟩ := Prod.mk.inj ((runOn_ofWork _ v).symm.trans hrun)
  rw [hstore] at hwork ⊢
  exact Work.contents_of_runOn_inTransaction_eq_error
    (fun _ => setting_retagSelected plan changes) (Prod.ext hwork rfl)

end Imageboard.Bulk
