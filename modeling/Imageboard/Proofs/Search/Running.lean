import Imageboard.Proofs.Search.Selecting

/-!
# When plans can be carried out

A plan that can be written is carried out on a store exactly if the tables that it reads are there
and the values that it binds can be bound. Otherwise it is refused, and the store is left alone in
any case.
-/

namespace Imageboard.Search

open Query

variable {plan : Plan} {limit : Option Int} {offset : Int} {s : Store}

/-- What a store must have, and what a plan must bind, for the rows of the plan to be counted. -/
structure Countable (plan : Plan) (s : Store) : Prop where
  tables : ∀ t ∈ sourceTables plan, s.contents.has t
  source : plan.fromFragment.params.all Value.fits = true
  conditions : ∀ k ∈ plan.conditions, k.values.all Value.fits = true

/-- What a store must have, and what a plan and a page must bind, for the page to be selected. -/
structure Selectable (plan : Plan) (limit : Option Int) (offset : Int) (s : Store) : Prop
    extends Countable plan s where
  orderTables : ∀ t ∈ orderTables plan.order, s.contents.has t
  order : plan.order.values.all Value.fits = true
  limit : (Value.integer (plan.effectiveLimit limit)).fits = true
  offset : (Value.integer offset).fits = true

/-- A statement that selects is read exactly if the page can be selected. -/
theorem readable_iff_selectable {f : Fragment} (h : plan.selectStatement limit offset = .ok f) :
    Work.Readable (sourceTables plan ++ Search.orderTables plan.order) f.params s ↔
      Selectable plan limit offset s := by
  have hfits := Plan.fits_selectStatement h
  constructor
  · intro hread
    obtain ⟨hsource, hconditions, horder, hlimit, hoffset⟩ := hfits.1 hread.values
    exact ⟨⟨fun t ht => hread.tables t (List.mem_append_left _ ht), hsource, hconditions⟩,
      fun t ht => hread.tables t (List.mem_append_right _ ht), horder, hlimit, hoffset⟩
  · intro hselect
    refine ⟨fun t ht => ?_, hfits.2 ⟨hselect.source, hselect.conditions, hselect.order,
      hselect.limit, hselect.offset⟩⟩
    rcases List.mem_append.1 ht with ht | ht
    · exact hselect.tables t ht
    · exact hselect.orderTables t ht

/-- A statement that counts is read exactly if the rows can be counted. -/
theorem readable_iff_countable {f : Fragment} (h : plan.countStatement = .ok f) :
    Work.Readable (sourceTables plan) f.params s ↔ Countable plan s := by
  have hfits := Plan.fits_countStatement h
  constructor
  · intro hread
    obtain ⟨hsource, hconditions⟩ := hfits.1 hread.values
    exact ⟨hread.tables, hsource, hconditions⟩
  · exact fun hcount => ⟨hcount.tables, hfits.2 ⟨hcount.source, hcount.conditions⟩⟩

/-- A page that can be selected is. -/
theorem Selectable.runOn_selectPostIds (hplan : plan.Statable) (h : Selectable plan limit offset s) :
    (selectPostIds plan limit offset).runOn s =
      (.ok (selectedIds s.contents plan limit offset), s) := by
  obtain ⟨f, hf⟩ := hplan.exists_selectStatement limit offset
  have hlift : (Work.lift (plan.selectStatement limit offset)).runOn s = (.ok f, s) := by
    rw [Work.runOn_lift, hf]
  rw [selectPostIds, Work.runOn_bind_of_ok hlift,
    runOn_run_of_readable ((readable_iff_selectable hf).2 h)]

/-- A page that cannot be selected is refused. -/
theorem runOn_selectPostIds_of_not_selectable (hplan : plan.Statable)
    (h : ¬ Selectable plan limit offset s) :
    ∃ e, (selectPostIds plan limit offset).runOn s = (.error e, s) := by
  obtain ⟨f, hf⟩ := hplan.exists_selectStatement limit offset
  have hlift : (Work.lift (plan.selectStatement limit offset)).runOn s = (.ok f, s) := by
    rw [Work.runOn_lift, hf]
  rw [selectPostIds, Work.runOn_bind_of_ok hlift]
  exact runOn_run_of_not_readable (fun hread => h ((readable_iff_selectable hf).1 hread)) _

/-- Rows that can be counted are. -/
theorem Countable.runOn_countPosts (hplan : plan.Statable) (h : Countable plan s) :
    (countPosts plan).runOn s = (.ok (selectedCount s.contents plan), s) := by
  obtain ⟨f, hf⟩ := hplan.exists_countStatement
  have hlift : (Work.lift plan.countStatement).runOn s = (.ok f, s) := by
    rw [Work.runOn_lift, hf]
  rw [countPosts, Work.runOn_bind_of_ok hlift,
    runOn_run_of_readable ((readable_iff_countable hf).2 h)]

/-- Rows that cannot be counted are refused. -/
theorem runOn_countPosts_of_not_countable (hplan : plan.Statable) (h : ¬ Countable plan s) :
    ∃ e, (countPosts plan).runOn s = (.error e, s) := by
  obtain ⟨f, hf⟩ := hplan.exists_countStatement
  have hlift : (Work.lift plan.countStatement).runOn s = (.ok f, s) := by
    rw [Work.runOn_lift, hf]
  rw [countPosts, Work.runOn_bind_of_ok hlift]
  exact runOn_run_of_not_readable (fun hread => h ((readable_iff_countable hf).1 hread)) _

end Imageboard.Search
