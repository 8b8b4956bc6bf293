import Imageboard.Proofs.Search.Answering
import Imageboard.Proofs.Search.Rearranging

/-!
# Pages of results

The pages of a plan that has no limit of its own and is not in random order belong to one list. It is
the same wherever the records of the store stand, the pages of one size follow each other in it, and
it is as long as the count of the plan says.
-/

namespace Imageboard

/-- Work that succeeds on each item, leaving the store alone, does so on a list of them. -/
theorem Work.runOn_mapM_of_ok {α β : Type} {f : α → Work β} {g : α → β} {s : Store} {xs : List α}
    (h : ∀ x ∈ xs, (f x).runOn s = (.ok (g x), s)) : (xs.mapM f).runOn s = (.ok (xs.map g), s) := by
  induction xs with
  | nil => rfl
  | cons x rest ih =>
    rw [List.mapM_cons, runOn_bind_of_ok (h x List.mem_cons_self),
      runOn_bind_of_ok (ih fun y hy => h y (List.mem_cons_of_mem _ hy))]
    rfl

/-- Parts of a list that follow each other, each of one size, are its beginning. -/
theorem flatten_parts {α : Type} (xs : List α) (size n : Nat) :
    ((List.range n).map fun k => (xs.drop (k * size)).take size).flatten = xs.take (n * size) := by
  induction n with
  | zero => simp
  | succ n ih =>
    rw [List.range_succ, List.map_append, List.flatten_append, ih, Nat.succ_mul, List.take_add]
    simp

/-- As many parts of a size as it takes hold all of a length, and all but the last one do not. -/
theorem parts_mul_size {size : Nat} (hone : 1 ≤ size) (length : Nat) :
    length ≤ (length + size - 1) / size * size ∧
      ((length + size - 1) / size - 1) * size ≤ length - 1 := by
  have hrest := Nat.mod_lt (length + size - 1) hone
  have hall := Nat.div_add_mod (length + size - 1) size
  rw [Nat.mul_comm] at hall
  rw [Nat.sub_mul, Nat.one_mul]
  omega

namespace Search

open Query

variable {plan : Plan} {s : Store}

/-- The first pages of a plan, each of a size. -/
def firstPages (plan : Plan) (size n : Nat) : Work (List (List Int)) :=
  (List.range n).mapM fun k => selectPostIds plan (some size) (k * size : Nat)

/-- What it means that the pages of a plan on a store are well defined. -/
structure WellPaged (plan : Plan) (s : Store) : Prop where
  /-- No two rows are equal in the order. -/
  distinct : (selectedRows s.contents plan).Pairwise fun r r' =>
    orderKeys (sortKeys s.contents plan.order r) (sortKeys s.contents plan.order r') ≠ .eq
  /-- No page depends on where the records stand. -/
  rearranged : ∀ s' : Store, s.contents.Rearranged s'.contents → ∀ limit offset,
    (selectPostIds plan limit offset).runOn s' =
      (((selectPostIds plan limit offset).runOn s).1, s')
  /-- The first pages, as far as their offsets can be bound, are the beginning of the whole. -/
  beginning : ∀ ids, (selectPostIds plan none 0).runOn s = (.ok ids, s) → ∀ size n : Nat,
    size < 2 ^ 63 → (n - 1) * size < 2 ^ 63 →
    ∃ pages, (firstPages plan size n).runOn s = (.ok pages, s) ∧ pages.flatten = ids.take (n * size)
  /-- As many pages as it takes are the whole. -/
  whole : ∀ ids, (selectPostIds plan none 0).runOn s = (.ok ids, s) → ids.length ≤ 2 ^ 63 →
    ∀ size : Nat, 1 ≤ size → size < 2 ^ 63 →
    ∃ pages, (firstPages plan size ((ids.length + size - 1) / size)).runOn s = (.ok pages, s) ∧
      pages.flatten = ids
  /-- The whole is as long as it is counted. -/
  counted : ∀ ids n, (selectPostIds plan none 0).runOn s = (.ok ids, s) →
    (countPosts plan).runOn s = (.ok n, s) → n = ids.length

/-- A page that is returned can be selected, and is what the plan selects. -/
theorem of_runOn_selectPostIds (hplan : plan.Statable) {limit : Option Int} {offset : Int}
    {ids : List Int} (h : (selectPostIds plan limit offset).runOn s = (.ok ids, s)) :
    Selectable plan limit offset s ∧ ids = selectedIds s.contents plan limit offset := by
  by_cases hselect : Selectable plan limit offset s
  · rw [hselect.runOn_selectPostIds hplan] at h
    exact ⟨hselect, (Except.ok.inj (Prod.mk.inj h).1).symm⟩
  · obtain ⟨e, he⟩ := runOn_selectPostIds_of_not_selectable hplan hselect
    rw [he] at h
    cases (Prod.mk.inj h).1

/-- A number of rows that is returned is the number of the rows that the plan selects. -/
theorem of_runOn_countPosts (hplan : plan.Statable) {n : Int}
    (h : (countPosts plan).runOn s = (.ok n, s)) : n = selectedCount s.contents plan := by
  by_cases hcount : Countable plan s
  · rw [hcount.runOn_countPosts hplan] at h
    exact (Except.ok.inj (Prod.mk.inj h).1).symm
  · obtain ⟨e, he⟩ := runOn_countPosts_of_not_countable hplan hcount
    rw [he] at h
    cases (Prod.mk.inj h).1

/-- If the whole can be selected, each page with a size and an offset that can be bound can be. -/
theorem Selectable.page (hlimit : plan.limit = none) (h : Selectable plan none 0 s) {size offset : Nat}
    (hsize : size < 2 ^ 63) (hoffset : offset < 2 ^ 63) : Selectable plan (some size) offset s :=
  { h with
    limit := by
      rw [Plan.effectiveLimit, hlimit]
      exact Value.fits_natCast hsize
    offset := Value.fits_natCast hoffset }

/-- A page is a part of the whole. -/
theorem selectedIds_page (c : Contents) (hlimit : plan.limit = none) (size offset : Nat) :
    selectedIds c plan (some size) offset = ((selectedIds c plan none 0).drop offset).take size := by
  have hwhole : plan.effectiveLimit none = -1 := by rw [Plan.effectiveLimit, hlimit]; rfl
  have hpage : plan.effectiveLimit (some size) = size := by rw [Plan.effectiveLimit, hlimit]; rfl
  have hsize : ¬ (size : Int) < 0 := by omega
  rw [selectedIds, selectedIds, hwhole, hpage, page, page, if_neg hsize, if_pos (by decide)]
  simp [List.map_take, List.map_drop]

/-- The first pages are parts of the whole that follow each other. -/
theorem runOn_firstPages (hplan : plan.Statable) (hlimit : plan.limit = none)
    (h : Selectable plan none 0 s) {size n : Nat} (hsize : size < 2 ^ 63)
    (hn : (n - 1) * size < 2 ^ 63) :
    (firstPages plan size n).runOn s = (.ok ((List.range n).map fun k =>
      ((selectedIds s.contents plan none 0).drop (k * size)).take size), s) := by
  refine Work.runOn_mapM_of_ok fun k hk => ?_
  have hoffset : k * size < 2 ^ 63 :=
    (Nat.mul_le_mul_right size (by have := List.mem_range.1 hk; omega)).trans_lt hn
  rw [(h.page hlimit hsize hoffset).runOn_selectPostIds hplan, selectedIds_page _ hlimit]

/-- The pages of a plan that a searcher makes, without a limit and not in random order, are well
defined on each store whose records have keys of their own and can be stored. -/
theorem wellPaged_of_compile {config : Config} {viewer : Viewer} {query : String} {u v : Searcher}
    (hcompile : (Searcher.compile config viewer query).runOn u = (.ok plan, v))
    (hrandom : plan.order.key ≠ .random) (hlimit : plan.limit = none)
    (hkeyed : s.contents.Keyed) (hstorable : ∀ p ∈ s.contents.posts, p.Storable) :
    WellPaged plan s := by
  obtain ⟨ts, d, -, hdraft, rfl⟩ := extends_of_compile (Searcher.of_runOn_compile hcompile)
  have hextends := extends_of_draftOf hdraft
  have hordered := hextends.wellOrdered_finish query
  have hplan := hextends.statable_finish query
  refine ⟨pairwise_orderKeys_ne_eq hkeyed hordered hrandom,
    fun s' h => runOn_selectPostIds_of_rearranged h hkeyed hstorable hordered hrandom,
    fun ids hids size n hsize hn => ?_, fun ids hids hlength size hone hsize => ?_,
    fun ids n hids hn => ?_⟩
  · obtain ⟨hselect, rfl⟩ := of_runOn_selectPostIds hplan hids
    exact ⟨_, runOn_firstPages hplan hlimit hselect hsize hn, flatten_parts _ _ _⟩
  · obtain ⟨hselect, rfl⟩ := of_runOn_selectPostIds hplan hids
    obtain ⟨hall, hlast⟩ := parts_mul_size hone
      (selectedIds s.contents (d.finish viewer query) none 0).length
    refine ⟨_, runOn_firstPages hplan hlimit hselect hsize (by omega), ?_⟩
    rw [flatten_parts, List.take_of_length_le hall]
  · obtain ⟨hselect, rfl⟩ := of_runOn_selectPostIds hplan hids
    rw [of_runOn_countPosts hplan hn, length_selectedIds hlimit]

/-- Contents in which an album shows the first of two posts twice. -/
def albumContents : Contents :=
  { petContents with
    pools := [⟨1, "album", "series", 0⟩]
    poolPosts := [⟨1, 1, 1⟩, ⟨1, 2, 2⟩, ⟨1, 1, 3⟩] }

/-- The pages of an album are well defined, although a post is in it twice. -/
theorem wellPaged_of_compile_album :
    WellPaged ⟨[], [], [], [⟨.relation .pool (.text "album"), false⟩],
      ⟨.ordpool, .asc, [.text "album"]⟩, none, "ordpool:album"⟩ (searcherOf albumContents).store := by
  have hcompile : (Searcher.compile .standard .anonymous "ordpool:album").runOn
      (searcherOf petContents) =
        (.ok ⟨[], [], [], [⟨.relation .pool (.text "album"), false⟩],
          ⟨.ordpool, .asc, [.text "album"]⟩, none, "ordpool:album"⟩, searcherOf petContents) := by
    decide +kernel
  refine wellPaged_of_compile hcompile (by decide) rfl ?_ ?_
  · exact ⟨by decide, by decide, by decide, by decide, by decide, by decide, by decide⟩
  · unfold Post.Storable Value.IsOrdered
    decide

/-- A page of 2 ^ 63 posts is refused, although all posts are found without a limit. -/
theorem selectPostIds_beyond_bound :
    let plan : Plan := ⟨[⟨"dog", false⟩], [], [], [], .standard, none, "dog"⟩
    let s := (searcherOf petContents).store
    ((Searcher.compile .standard .anonymous "dog").runOn (searcherOf petContents)).1 = .ok plan ∧
      plan.order.key ≠ .random ∧ s.contents.Keyed ∧
      (selectPostIds plan none 0).runOn s = (.ok [2], s) ∧
      (selectPostIds plan (some (2 ^ 63)) 0).runOn s = (.error .overflow, s) := by
  intro plan s
  have hids : selectedIds s.contents plan none 0 = [2] := by
    have hrows : selectedRows s.contents plan = [⟨PostDraft.toPost {} 2 .null, none⟩] := by
      decide +kernel
    have hperm : (selectedIds s.contents plan none 0).Perm
        ((selectedRows s.contents plan).map (·.post.id)) := selectedIds_perm rfl
    rw [hrows] at hperm
    exact List.perm_singleton.1 hperm
  have hreadable : Work.Readable (sourceTables plan ++ orderTables plan.order)
      [.text "dog", .integer (-1), .integer 0] s := ⟨by decide, by decide⟩
  refine ⟨by decide +kernel, by decide,
    ⟨by decide, by decide, by decide, by decide, by decide, by decide, by decide⟩, ?_,
    by decide +kernel⟩
  have hrun := runOn_run_of_readable hreadable fun c => selectedIds c plan none 0
  rw [hids] at hrun
  exact hrun

end Search

end Imageboard
