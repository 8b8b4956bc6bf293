import Imageboard.Proofs.Query.IdLists
import Imageboard.Proofs.Search.Paging
import Mathlib.Data.List.Sort

/-!
# Posts in the order of a list

A custom order puts posts where the last list of ids in the query first has their ids. What is selected is
in the list, because the list is a condition too, so that the ids are returned in the order in which the
list mentions them first, each once, without those that no selected post has.
-/

namespace Imageboard

namespace Query

variable {α : Type} [BEq α] [LawfulBEq α]

/-- The items of a list that were not seen before are kept in the order of their places. -/
theorem pairwise_idxOf_firstOfEach_id (seen xs : List α) :
    (firstOfEach id seen xs).Pairwise fun x y => xs.idxOf x < xs.idxOf y := by
  induction xs generalizing seen with
  | nil => exact List.Pairwise.nil
  | cons first rest ih =>
    -- What is kept of the rest is not the first item, so that its place is one further on.
    have hrest (seen' : List α) (hfirst : first ∈ seen') :
        (firstOfEach id seen' rest).Pairwise fun x y =>
          (first :: rest).idxOf x < (first :: rest).idxOf y := by
      have hne {x : α} (hx : x ∈ firstOfEach id seen' rest) : first ≠ x := by
        rintro rfl
        exact (mem_firstOfEach_id.1 hx).2 hfirst
      refine (ih seen').imp_of_mem fun {x y} hx hy hlt => ?_
      rw [List.idxOf_cons_ne _ (hne hx), List.idxOf_cons_ne _ (hne hy)]
      exact Nat.succ_lt_succ hlt
    rw [firstOfEach]
    split
    next hseen => exact hrest seen (by simpa using hseen)
    next =>
      refine List.pairwise_cons.2 ⟨fun y hy => ?_, hrest _ List.mem_cons_self⟩
      have hne : first ≠ y := by
        rintro rfl
        exact (mem_firstOfEach_id.1 hy).2 List.mem_cons_self
      rw [List.idxOf_cons_self, List.idxOf_cons_ne _ hne]
      exact Nat.succ_pos _

/-- Distinct items of a list that are in the order of their places are some of its items without
repetitions, in their order. -/
theorem sublist_distinct {xs ys : List α} (hnodup : xs.Nodup) (hsubset : xs ⊆ ys)
    (hplaces : xs.Pairwise fun x y => ys.idxOf x ≤ ys.idxOf y) : xs.Sublist (distinct ys) := by
  have hstrict : xs.Pairwise fun x y => ys.idxOf x < ys.idxOf y :=
    (hplaces.and hnodup).imp_of_mem fun {x y} hx _ h =>
      h.1.lt_of_ne fun heq => h.2 ((List.idxOf_inj (hsubset hx)).1 heq)
  have hsubperm : xs.Subperm (distinct ys) :=
    List.subperm_of_subset hnodup fun x hx => mem_distinct.2 (hsubset hx)
  have : Std.Antisymm fun x y => ys.idxOf x < ys.idxOf y :=
    ⟨fun x y hxy hyx => absurd hyx hxy.asymm⟩
  exact List.sublist_of_subperm_of_pairwise hsubperm hstrict (pairwise_idxOf_firstOfEach_id [] ys)

end Query

namespace Search

open Query Text

variable {c : Contents} {plan : Plan} {listed : List Int}

/-- The place of a listed id is where it is listed first. -/
theorem placeIn_integers {id : Int} (hid : id ∈ listed) :
    placeIn id (listed.map .integer) = .integer (listed.idxOf id) := by
  have hsame : ((fun v => Value.compare? (.integer id) v == some .eq) ∘ Value.integer) =
      fun n => n == id := by
    funext n
    change (some (compare id n) == some .eq) = (n == id)
    rw [Bool.eq_iff_iff, beq_iff_eq, beq_iff_eq, Option.some_inj, compare_eq_iff_eq, eq_comm]
  have hfound : (listed.map Value.integer).findIdx? (fun v =>
      Value.compare? (.integer id) v == some .eq) = some (listed.idxOf id) := by
    rw [List.findIdx?_map, hsame]
    exact List.findIdx?_eq_some_of_exists ⟨id, hid, beq_self_eq_true id⟩
  rw [placeIn, hfound]

/-- What a plan in a custom order selects has listed ids. -/
theorem id_mem_of_mem_selectedRows {category : Option Int} {r : Row}
    (hlist : ⟨.range .id (.among (listed.map .integer)) category, false⟩ ∈ plan.conditions)
    (hr : r ∈ selectedRows c plan) : r.post.id ∈ listed := by
  obtain ⟨v, hv, hcompare⟩ :=
    exists_compare?_eq_of_among (conditionTruth_of_mem_selectedRows hr hlist)
  obtain ⟨n, hn, rfl⟩ := List.mem_map.1 hv
  have hsame : r.post.id = n := compare_eq_iff_eq.1 (Option.some.inj hcompare)
  rwa [hsame]

/-- Keys that are one integer are in order as the integers are. -/
theorem orderKeys_integer (m n : Int) :
    orderKeys [(.integer m, .asc)] [(.integer n, .asc)] = compare m n := by
  have horder : Value.order (.integer m) (.integer n) = compare m n := rfl
  rw [orderKeys, if_pos rfl, horder]
  cases compare m n <;> rfl

/-- Rows with listed ids are put in the order of the places of their ids. -/
theorem map_id_sortRows_custom {rows : List Row} (hrows : ∀ r ∈ rows, r.post.id ∈ listed) :
    (sortRows c ⟨.custom, .asc, listed.map .integer⟩ rows).map (·.post.id) =
      (rows.map (·.post.id)).mergeSort fun m n => listed.idxOf m ≤ listed.idxOf n := by
  rw [sortRows_eq_mergeSort]
  refine List.map_mergeSort fun r hr r' hr' => ?_
  simp only [mayPrecede, sortKeys, placeIn_integers (hrows r hr), placeIn_integers (hrows r' hr'),
    orderKeys_integer]
  rw [Bool.eq_iff_iff, bne_iff_ne, decide_eq_true_iff, compare_le_iff_le, Int.ofNat_le]

/-- In a custom order the selected ids are a part of the list without its repetitions. -/
theorem selectedIds_sublist_distinct {category : Option Int}
    (horder : plan.order = ⟨.custom, .asc, listed.map .integer⟩) (hlimit : plan.limit = none)
    (hlist : ⟨.range .id (.among (listed.map .integer)) category, false⟩ ∈ plan.conditions)
    (hkeyed : (c.posts.map (·.id)).Nodup) :
    (selectedIds c plan none 0).Sublist (distinct listed) := by
  have hmem : ∀ r ∈ selectedRows c plan, r.post.id ∈ listed :=
    fun r hr => id_mem_of_mem_selectedRows hlist hr
  have hpool : plan.order.key ≠ .ordpool := by
    rw [horder]
    exact nofun
  have hsubset : selectedIds c plan none 0 ⊆ listed := fun id hid => by
    obtain ⟨r, hr, rfl⟩ := List.mem_map.1 ((selectedIds_perm hlimit).mem_iff.1 hid)
    exact hmem r hr
  have hplaces : (selectedIds c plan none 0).Pairwise fun m n =>
      listed.idxOf m ≤ listed.idxOf n := by
    rw [selectedIds_eq_map_sortRows hlimit, horder, map_id_sortRows_custom hmem]
    refine (List.pairwise_mergeSort (fun k m n hkm hmn => ?_) (fun m n => ?_) _).imp
      fun h => of_decide_eq_true h
    · exact decide_eq_true ((of_decide_eq_true hkm).trans (of_decide_eq_true hmn))
    · simpa using Nat.le_total _ _
  exact sublist_distinct (nodup_selectedIds hpool hlimit hkeyed) hsubset hplaces

/-- If a plan in a custom order, without a limit, is carried out on posts with distinct ids, each post that
satisfies the terms of the query is returned once, and no other post is, in the order in which the last
list of ids among the distinct terms mentions their ids first. -/
theorem of_runOn_selectPostIds_custom {config : Config} {resolve : String → String} {viewer : Viewer}
    {clock : Moment} {query : String} {s : Store} {ids : List Int}
    (hcompile : compile config resolve viewer clock query = .ok plan)
    (hcustom : plan.order.key = .custom) (hlimit : plan.limit = none)
    (hkeyed : (s.contents.posts.map (·.id)).Nodup)
    (hrun : ((selectPostIds plan none 0).runOn s).1 = .ok ids) :
    ∃ ts listed, readTerms config query = .ok ts ∧
      IsLastIdList (firstOfEach Term.key [] ts) listed ∧ ids.Nodup ∧ ids.Sublist (distinct listed) ∧
      ∀ id, id ∈ ids ↔ ∃ p ∈ s.contents.posts, p.id = id ∧
        Satisfies config resolve viewer (referenceMoment viewer clock) ts s.contents p := by
  obtain ⟨ts, d, hread, hdraft, rfl⟩ := extends_of_compile hcompile
  have hextends := extends_of_draftOf hdraft
  have hlower : ∀ t ∈ firstOfEach Term.key [] ts, t.kind = .metatag → lowerString t.name = t.name :=
    fun t ht => lowerString_name_of_readTerms hread ((firstOfEach_sublist [] ts).mem ht)
  obtain ⟨listed, horder, hlast⟩ := hextends.custom_finish hlower hcustom
  obtain ⟨category, hlist⟩ := (hextends.wellOrdered_finish query).custom hcustom
  rw [horder] at hlist
  have hpool : (d.finish viewer query).order.key ≠ .ordpool := by
    rw [hcustom]
    exact nofun
  obtain ⟨-, rfl⟩ := of_runOn_selectPostIds (hextends.statable_finish query)
    (Prod.ext hrun (reads_selectPostIds _ _ _ s))
  refine ⟨ts, listed, hread, hlast, nodup_selectedIds hpool hlimit hkeyed,
    selectedIds_sublist_distinct horder hlimit hlist hkeyed, fun id => ?_⟩
  simp only [mem_selectedIds_iff_exists hpool hlimit, selects_finish_iff hextends]

/-- The plan of a query for lists of ids, in the order of the last one. -/
def listsPlan (query : String) (lists : List (List Int)) (last : List Int) : Plan :=
  ⟨[], [], [], (lists ++ [last]).map fun ids => ⟨.range .id (.among (ids.map .integer)) none, false⟩,
    ⟨.custom, .asc, last.map .integer⟩, none, query⟩

/-- If as many posts are selected as different ids are listed last, all of these are returned. -/
theorem runOn_selectPostIds_listsPlan {query : String} {lists : List (List Int)} {last : List Int}
    {s : Store} (hselect : Selectable (listsPlan query lists last) none 0 s)
    (hkeyed : (s.contents.posts.map (·.id)).Nodup)
    (hlength : (selectedRows s.contents (listsPlan query lists last)).length = (distinct last).length) :
    (selectPostIds (listsPlan query lists last) none 0).runOn s = (.ok (distinct last), s) := by
  have hstatable : (listsPlan query lists last).Statable := by
    refine ⟨fun k hk => ?_, ⟨_, rfl⟩⟩
    obtain ⟨ids, -, rfl⟩ := List.mem_map.1 hk
    exact (Predicate.statable_range _ _ _).condition false
  have hsublist : (selectedIds s.contents (listsPlan query lists last) none 0).Sublist (distinct last) :=
    selectedIds_sublist_distinct rfl rfl (List.mem_map_of_mem (by simp)) hkeyed
  have hall := hsublist.eq_of_length (by
    rw [(selectedIds_perm rfl).length_eq, List.length_map, hlength])
  rw [hselect.runOn_selectPostIds hstatable, hall]

/-- Of two posts the second comes first if it is listed first, however often that is done. -/
theorem of_runOn_selectPostIds_custom_pets :
    let s : Store := .ofContents petContents ⟨0, 0⟩ .standard
    let query := "id:1,2 order:custom id:2,1,2"
    ∃ ts listed, readTerms .standard query = .ok ts ∧
      IsLastIdList (firstOfEach Term.key [] ts) listed ∧ ([2, 1] : List Int).Nodup ∧
      [2, 1].Sublist (distinct listed) ∧
      ∀ id, id ∈ [2, 1] ↔ ∃ p ∈ s.contents.posts, p.id = id ∧
        Satisfies .standard petContents.standsFor .anonymous ⟨0, 0⟩ ts s.contents p := by
  intro s query
  have hcompile : compile .standard petContents.standsFor .anonymous ⟨0, 0⟩ query =
      .ok (listsPlan query [[1, 2]] [2, 1, 2]) := by
    decide +kernel
  have hselect : Selectable (listsPlan query [[1, 2]] [2, 1, 2]) none 0 s :=
    ⟨⟨by decide, rfl, by decide⟩, by decide, by decide, rfl, rfl⟩
  have hrun : ((selectPostIds (listsPlan query [[1, 2]] [2, 1, 2]) none 0).runOn s).1 = .ok [2, 1] :=
    congrArg Prod.fst (runOn_selectPostIds_listsPlan hselect (by decide) (by decide +kernel))
  exact of_runOn_selectPostIds_custom hcompile rfl rfl (by decide) hrun

/-- A list that stands in a query twice counts where it stands first: another one, which is in between, is
the last one then, and gives the order. -/
theorem selectPostIds_custom_repeated :
    let s : Store := .ofContents petContents ⟨0, 0⟩ .standard
    let query := "id:1,2 id:2,1 id:1,2 order:custom"
    let plan := listsPlan query [[1, 2]] [2, 1]
    compile .standard petContents.standsFor .anonymous ⟨0, 0⟩ query = .ok plan ∧
      (s.contents.posts.map (·.id)).Nodup ∧
      (∃ ts, readTerms .standard query = .ok ts ∧ IsLastIdList ts [1, 2]) ∧
      (selectPostIds plan none 0).runOn s = (.ok [2, 1], s) ∧ ¬ [2, 1].Sublist (distinct [1, 2]) := by
  intro s query plan
  let term (text : String) : Term := ⟨.metatag, .required, "id", some text, "id:" ++ text⟩
  let order : Term := ⟨.order, .required, "order", some "custom", "order:custom"⟩
  have hlast : IsLastIdList [term "1,2", term "2,1", term "1,2", order] [1, 2] := by
    refine ⟨[term "1,2", term "2,1"], term "1,2", [order], rfl, ?_, fun u hu others hothers => ?_⟩
    · exact ⟨rfl, rfl, by decide, by decide +kernel, by decide, by decide +kernel⟩
    · obtain rfl := List.mem_singleton.1 hu
      cases hothers.metatag
  have hselect : Selectable plan none 0 s :=
    ⟨⟨by decide, rfl, by decide⟩, by decide, by decide, rfl, rfl⟩
  exact ⟨by decide +kernel, by decide, ⟨_, by decide +kernel, hlast⟩,
    runOn_selectPostIds_listsPlan hselect (by decide) (by decide +kernel), by decide⟩

end Search

end Imageboard
