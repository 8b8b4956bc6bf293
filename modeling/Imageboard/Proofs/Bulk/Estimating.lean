import Imageboard.Proofs.Bulk.Performing
import Imageboard.Proofs.Query.Limiting
import Imageboard.Proofs.Search.Expiring
import Imageboard.Proofs.Search.Paging

/-!
# Estimates of mass updates

What a mass update would change is estimated by the number of the rows that its query selects. The
update itself takes them one by one, repeated rows included, but no more than the limit that the query
sets, which the estimate overlooks. So the number of changed posts is the estimate, cut off at the limit.
-/

namespace Imageboard.Bulk

open Search SearchWork

variable {config : Config} {plan : Query.Plan} {s : Store}

/-- A number of rows, cut off at the limit of a plan if it has one. -/
def cutOff (plan : Query.Plan) (count : Int) : Int :=
  plan.limit.elim count (min count)

/-- As many ids are returned as rows are selected, cut off at the limit of the plan. -/
theorem length_selectedIds_eq_cutOff (hlimit : ∀ k ∈ plan.limit, 0 ≤ k) (c : Contents) :
    ((selectedIds c plan none 0).length : Int) = cutOff plan (selectedCount c plan) := by
  unfold cutOff
  cases hplan : plan.limit with
  | none => exact length_selectedIds hplan
  | some k => exact length_selectedIds_of_limit hplan (hlimit k hplan)

/-- If the posts of a plan can be selected, its rows can be counted, and the number of the posts is that
of the rows, cut off at the limit. -/
theorem runOn_countPosts_of_ids (hplan : plan.Statable) (hlimit : ∀ k ∈ plan.limit, 0 ≤ k)
    {ids : List Int} (hselect : (selectPostIds plan none 0).runOn s = (.ok ids, s)) :
    ∃ count, (countPosts plan).runOn s = (.ok count, s) ∧ (ids.length : Int) = cutOff plan count := by
  obtain ⟨hselectable, rfl⟩ := of_runOn_selectPostIds hplan hselect
  exact ⟨_, hselectable.toCountable.runOn_countPosts hplan, length_selectedIds_eq_cutOff hlimit _⟩

/-- An estimate is the count of the plan that a searcher makes, whatever counts it remembers. -/
theorem runOn_estimateMassUpdate {viewer : Viewer} {query : String} {counts : CountCache}
    {u : Searcher} {count : Int}
    (hcompile : (Searcher.compile config viewer query).runOn ⟨s, .fresh s, counts⟩ = (.ok plan, u))
    (hcount : (countPosts plan).runOn s = (.ok count, s)) :
    (estimateMassUpdate config viewer query).runOn s = (.ok count, s) := by
  have hstore : u.store = s := (Searcher.reads_compile _ _ _).store_eq hcompile
  have hblind := Searcher.ignoresCounts_compile config viewer query ⟨s, .fresh s, counts⟩ ⟨.broken, 0⟩
  rw [hcompile] at hblind
  have hrun : (Searcher.count config viewer query).runOn ⟨s, .fresh s, ⟨.broken, 0⟩⟩ =
      (.ok count, { u with counts := ⟨.broken, 0⟩ }) := by
    rw [Searcher.count, runOn_bind_of_ok hblind, runOn_ofWork]
    dsimp only
    rw [hstore, hcount, ← hstore]
  have hestimate : (estimateMassUpdate config viewer query).runOn s =
      (((Searcher.count config viewer query).runOn ⟨s, .fresh s, ⟨.broken, 0⟩⟩).1,
        ((Searcher.count config viewer query).runOn ⟨s, .fresh s, ⟨.broken, 0⟩⟩).2.store) := rfl
  rw [hestimate, hrun]
  exact Prod.ext rfl hstore

/-- A mass update of a new searcher that succeeds can be estimated, and changes as many posts as
estimated, but no more than the limit that its query sets. -/
theorem exists_estimate_of_perform {job : Job} {counts : CountCache} {n : Int} {t : Searcher}
    (hrun : (perform config job).runOn ⟨s, .fresh s, counts⟩ = (.ok n, t)) :
    ∃ plan u estimate,
      (Searcher.compile config (viewerOf job) job.query).runOn ⟨s, .fresh s, counts⟩ = (.ok plan, u) ∧
      (estimateMassUpdate config (viewerOf job) job.query).runOn s = (.ok estimate, s) ∧
      n = cutOff plan estimate := by
  obtain ⟨-, plan, changes, postIds, hperformed, rfl⟩ := exists_performed hrun
  obtain ⟨u, -, hplan, -⟩ := hperformed.planned
  obtain ⟨hcompile, -, -⟩ := (Searcher.faithful_fresh s counts).of_runOn_compile hplan
  obtain ⟨ts, d, -, hd, rfl⟩ := Query.extends_of_compile hcompile
  obtain ⟨count, hcount, hn⟩ := runOn_countPosts_of_ids
    ((Query.extends_of_draftOf hd).statable_finish job.query) (Query.nonneg_of_compile hcompile)
    hperformed.selected
  exact ⟨_, u, count, hplan, runOn_estimateMassUpdate hplan hcount, hn⟩

/-- A mass update of the first cat. -/
def oneCat : Job :=
  ⟨"cat order:id limit:1", "feline", some 1, some "alice"⟩

/-- The mass update of the first cat, out of two, succeeds and changes one post. -/
theorem perform_oneCat : ((perform .standard oneCat).runOn (searcherOf petContents)).1 = .ok 1 := by
  let plan : Query.Plan :=
    ⟨[⟨"cat", false⟩], [], [], [], ⟨.id, .asc, []⟩, some 1, "cat order:id limit:1"⟩
  let rows : List Row := [⟨PostDraft.toPost {} 1 .null, none⟩, ⟨PostDraft.toPost {} 2 .null, none⟩]
  let u : Searcher := { searcherOf petContents with aliases := ⟨0, [("cat", "cat")]⟩ }
  let v : Searcher := { u with aliases := ⟨0, [("feline", "feline"), ("cat", "cat")]⟩ }
  have hcompile : (Searcher.compile .standard (viewerOf oneCat) oneCat.query).runOn
      (searcherOf petContents) = (.ok plan, u) := by decide +kernel
  have hchanges : (tagChanges .standard oneCat).runOn u = (.ok ⟨["cat"], ["feline"]⟩, v) := by
    decide +kernel
  have hrows : selectedRows petContents plan = rows := by decide +kernel
  have hsorted : sortRows petContents plan.order rows = rows := by
    rw [sortRows, List.mergeSort_of_pairwise (by decide +kernel)]
    rfl
  have hids : selectedIds petContents plan none 0 = [1] := by
    rw [selectedIds, hrows, hsorted]
    rfl
  have hselect : (selectPostIds plan none 0).runOn v.store.begun = (.ok [1], v.store.begun) := by
    have hreadable : Work.Readable (sourceTables plan ++ orderTables plan.order)
        [.text "cat", .integer 1, .integer 0] v.store.begun := ⟨by decide, by decide⟩
    rw [← hids]
    exact runOn_run_of_readable hreadable fun c => selectedIds c plan none 0
  have hretag : (retagSelected plan ⟨["cat"], ["feline"]⟩).runOn v.store.begun =
      (retag ⟨["cat"], ["feline"]⟩ [1] >>= fun _ => pure 1 : Work Int).runOn v.store.begun :=
    Work.runOn_bind_of_ok hselect
  have hidle : v.store.Idle := ⟨by decide, by decide, by decide⟩
  have hwork := Work.runOn_inTransaction_of_idle hidle
    fun _ => setting_retagSelected plan ⟨["cat"], ["feline"]⟩
  rw [hretag] at hwork
  rw [perform, runOn_bind_of_ok hcompile, runOn_bind_of_ok hchanges, runOn_ofWork]
  exact (congrArg Prod.fst hwork).trans (by decide +kernel)

/-- The post that it changes is what the estimate leaves at the limit. -/
theorem exists_estimate_of_one_cat :
    ((perform .standard oneCat).runOn (searcherOf petContents)).1 = .ok 1 ∧
      ∃ plan u estimate,
        (Searcher.compile .standard (viewerOf oneCat) oneCat.query).runOn (searcherOf petContents) =
          (.ok plan, u) ∧
        (estimateMassUpdate .standard (viewerOf oneCat) oneCat.query).runOn
            (searcherOf petContents).store = (.ok estimate, (searcherOf petContents).store) ∧
        1 = cutOff plan estimate :=
  ⟨perform_oneCat, exists_estimate_of_perform (Prod.ext perform_oneCat rfl)⟩

/-- The mass update of the first cat out of two is estimated to change two posts. -/
theorem estimate_exceeds_perform :
    ((estimateMassUpdate .standard (viewerOf oneCat) oneCat.query).runOn
        (searcherOf petContents).store).1 = .ok 2 ∧
      ((perform .standard oneCat).runOn (searcherOf petContents)).1 = .ok 1 :=
  ⟨by decide +kernel, perform_oneCat⟩

end Imageboard.Bulk
