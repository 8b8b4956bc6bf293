import Imageboard.Proofs.Lookup
import Imageboard.Proofs.Search.Running
import Imageboard.Proofs.Search.Sorting

/-!
# Where records stand

Searches look records up by keys, count them, or ask whether there is one; none of this depends on
where in its table a record stands. So plans select the same rows from contents that hold the same
records, and if their order is not random, put them in the same order.
-/

namespace Imageboard

/-- Whether two contents have the same tables and hold the same records of what searches read,
wherever these stand. -/
structure Contents.Rearranged (c c' : Contents) : Prop where
  users : c.users.Perm c'.users
  tags : c.tags.Perm c'.tags
  posts : c.posts.Perm c'.posts
  taggings : c.taggings.Perm c'.taggings
  pools : c.pools.Perm c'.pools
  poolPosts : c.poolPosts.Perm c'.poolPosts
  favorites : c.favorites.Perm c'.favorites
  votes : c.votes.Perm c'.votes
  has : ∀ t, c'.has t = c.has t

namespace Contents.Rearranged

variable {c c' : Contents}

/-- A user is found by name. -/
theorem findUser? (h : c.Rearranged c') (hkeyed : c.Keyed) (name : String) :
    c'.findUser? name = c.findUser? name :=
  find?_eq_of_perm h.users hkeyed.userNames _

/-- A post is found by its id. -/
theorem findPost? (h : c.Rearranged c') (hkeyed : c.Keyed) (id : Int) :
    c'.findPost? id = c.findPost? id :=
  find?_eq_of_perm h.posts hkeyed.posts _

/-- A tag is found by its id. -/
theorem tagWithId? (h : c.Rearranged c') (hkeyed : c.Keyed) (id : Int) :
    c'.tagWithId? id = c.tagWithId? id :=
  find?_eq_of_perm h.tags hkeyed.tags _

/-- The ids of the tags of a post are the same. -/
theorem tagIdsOf (h : c.Rearranged c') (postId : Int) :
    (c.tagIdsOf postId).Perm (c'.tagIdsOf postId) :=
  (h.taggings.filter _).map _

/-- The tags of a post are the same. -/
theorem tagsOf (h : c.Rearranged c') (hkeyed : c.Keyed) (postId : Int) :
    (c.tagsOf postId).Perm (c'.tagsOf postId) := by
  have hfind : c'.tagWithId? = c.tagWithId? := funext (h.tagWithId? hkeyed)
  rw [Contents.tagsOf, Contents.tagsOf, hfind]
  exact (h.tagIdsOf postId).filterMap _

end Contents.Rearranged

namespace Search

open Query

variable {c c' : Contents} {plan : Plan} {limit : Option Int} {offset : Int} {s s' : Store}

/-- The largest of some numbers does not depend on their order. -/
theorem largest?_eq_of_perm {ms ns : List Int} (h : ms.Perm ns) : largest? ms = largest? ns := by
  have hmax (ks : List Int) : largest? ks = ks.max? := by
    cases ks with
    | nil => rfl
    | cons k ks => rw [largest?, List.max?_cons']
  rw [hmax, hmax]
  refine Option.ext fun a => ?_
  rw [List.max?_eq_some_iff, List.max?_eq_some_iff]
  simp only [h.mem_iff]

/-- The rows that a plan selects are of posts of the store. -/
theorem post_mem_of_mem_selectedRows {r : Row} (hr : r ∈ selectedRows c plan) : r.post ∈ c.posts := by
  have hsource := (List.mem_filter.1 hr).1
  unfold sourceRows at hsource
  split at hsource
  · obtain ⟨e, -, he⟩ := List.mem_filterMap.1 hsource
    split at he
    · obtain ⟨p, hp, rfl⟩ := Option.map_eq_some_iff.1 he
      exact List.mem_of_find?_eq_some hp
    · cases he
  · obtain ⟨p, hp, rfl⟩ := List.mem_map.1 hsource
    exact hp

/-! ## Conditions -/

section Conditions

variable (h : c.Rearranged c') (hkeyed : c.Keyed)

include h hkeyed

/-- The columns of a post have the same values. -/
theorem columnValue_eq_of_rearranged (p : Post) (category : Option Int) (column : Column) :
    columnValue c' p category column = columnValue c p category column := by
  cases column with
  | tagCount => simp only [columnValue, tagCount, (h.tagIdsOf p.id).length_eq]
  | categoryTagCount =>
    simp only [columnValue, categoryTagCount, (h.tagsOf hkeyed p.id).countP_eq]
  | _ => rfl

/-- The same post carries a tag that a filter accepts. -/
theorem carries_eq_of_rearranged (p : Post) (f : TagFilter) : carries c' p f = carries c p f :=
  (h.tagsOf hkeyed p.id).any_eq.symm

omit hkeyed in
/-- A record belongs to the same user. -/
theorem isOfUser_eq_of_rearranged (value : Value) (userId : Int) :
    isOfUser c' value userId = isOfUser c value userId :=
  h.users.any_eq.symm

/-- A user of a post is the one that a value names in both. -/
theorem userIs_eq_of_rearranged (userId : Option Int) (value : Value) :
    userIs c' userId value = userIs c userId value := by
  have hfind : c'.findUser? = c.findUser? := funext (h.findUser? hkeyed)
  rw [userIs, userIs, userIdOf, userIdOf, hfind]

omit hkeyed in
/-- A post is in the same pools. -/
theorem inPool_eq_of_rearranged (p : Post) (wanted : Pool → Bool) :
    inPool c' p wanted = inPool c p wanted := by
  have hpools (e : PoolPost) :
      (c'.pools.any fun o => o.id = e.poolId && o.isDeleted = 0 && wanted o) =
        c.pools.any fun o => o.id = e.poolId && o.isDeleted = 0 && wanted o :=
    h.pools.any_eq.symm
  simp only [inPool, hpools]
  exact h.poolPosts.any_eq.symm

omit hkeyed in
/-- A post has the same votes. -/
theorem hasVote_eq_of_rearranged (p : Post) (value : Value) (wanted : Int → Bool) :
    hasVote c' p value wanted = hasVote c p value wanted := by
  simp only [hasVote, isOfUser_eq_of_rearranged h]
  exact h.votes.any_eq.symm

/-- The same relations of a post hold. -/
theorem related_eq_of_rearranged (p : Post) (value : Value) (r : Relation) :
    related c' p value r = related c p value r := by
  have hfavorites : (c'.favorites.any fun f => f.postId = p.id && isOfUser c' value f.userId) =
      c.favorites.any fun f => f.postId = p.id && isOfUser c value f.userId := by
    simp only [isOfUser_eq_of_rearranged h]
    exact h.favorites.any_eq.symm
  have hchild : hasChild c' p = hasChild c p := h.posts.any_eq.symm
  cases r <;> simp only [related, userIs_eq_of_rearranged h hkeyed, hfavorites, hchild,
    hasVote_eq_of_rearranged h, inPool_eq_of_rearranged h]

/-- A condition says the same about a post. -/
theorem conditionTruth_eq_of_rearranged (p : Post) (k : Condition) :
    conditionTruth c' p k = conditionTruth c p k := by
  have htruth (predicate : Predicate) : truthOf c' p predicate = truthOf c p predicate := by
    cases predicate with
    | flags columns value combine => cases combine <;> rfl
    | never reason => rfl
    | _ => simp only [truthOf, columnValue_eq_of_rearranged h hkeyed,
        related_eq_of_rearranged h hkeyed]
  rw [conditionTruth, conditionTruth, htruth]

/-- A plan selects the same posts. -/
theorem selects_eq_of_rearranged (plan : Plan) (p : Post) : selects c' plan p = selects c plan p := by
  simp only [selects, planTruth, carries_eq_of_rearranged h hkeyed,
    funext (conditionTruth_eq_of_rearranged h hkeyed p)]

/-! ## Rows -/

/-- A row has the same keys. -/
theorem sortKeys_eq_of_rearranged (o : Order) (r : Row) : sortKeys c' o r = sortKeys c o r := by
  have htags : tagCount c' r.post = tagCount c r.post :=
    Value.integer.inj (columnValue_eq_of_rearranged h hkeyed r.post none .tagCount)
  have hcategory (category : Option Int) :
      categoryTagCount c' r.post category = categoryTagCount c r.post category :=
    Value.integer.inj (columnValue_eq_of_rearranged h hkeyed r.post category .categoryTagCount)
  have hfavorite (user : Value) :
      largest? ((c'.favorites.filter fun f =>
        f.postId = r.post.id && isOfUser c' user f.userId).map (·.id)) =
      largest? ((c.favorites.filter fun f =>
        f.postId = r.post.id && isOfUser c user f.userId).map (·.id)) := by
    simp only [isOfUser_eq_of_rearranged h]
    exact (largest?_eq_of_perm ((h.favorites.filter _).map _)).symm
  unfold sortKeys
  cases o.key with
  | tagcount => simp only [htags]
  | categoryTags => simp only [hcategory]
  | ordfav => simp only [hfavorite]
  | _ => rfl

/-- A plan selects the same rows. -/
theorem selectedRows_perm_of_rearranged (plan : Plan) :
    (selectedRows c plan).Perm (selectedRows c' plan) := by
  have hselects (r : Row) : selects c' plan r.post = selects c plan r.post :=
    selects_eq_of_rearranged h hkeyed plan r.post
  have hpool (name : Value) : (poolRows c name).Perm (poolRows c' name) := by
    have hpools (e : PoolPost) :
        (c'.pools.any fun o => o.id = e.poolId &&
          (textOf? name).any fun n => Text.foldAscii o.name = Text.foldAscii n) =
        c.pools.any fun o => o.id = e.poolId &&
          (textOf? name).any fun n => Text.foldAscii o.name = Text.foldAscii n :=
      h.pools.any_eq.symm
    simp only [poolRows, hpools, h.findPost? hkeyed]
    exact h.poolPosts.filterMap _
  have hsource : (sourceRows c plan).Perm (sourceRows c' plan) := by
    unfold sourceRows
    split
    · exact hpool _
    · exact h.posts.map _
  simp only [selectedRows, hselects]
  exact hsource.filter _

/-- The pages of a plan are the same. -/
theorem selectedIds_eq_of_rearranged (hstorable : ∀ p ∈ c.posts, p.Storable)
    (hordered : plan.WellOrdered) (hrandom : plan.order.key ≠ .random) (limit : Option Int)
    (offset : Int) : selectedIds c' plan limit offset = selectedIds c plan limit offset := by
  have hsorted : sortRows c' plan.order (selectedRows c' plan) =
      sortRows c plan.order (selectedRows c plan) :=
    sortRows_eq_of_perm (selectedRows_perm_of_rearranged h hkeyed plan)
      (fun r hr => hstorable _ (post_mem_of_mem_selectedRows hr))
      (fun r _ => sortKeys_eq_of_rearranged h hkeyed _ r)
      (pairwise_orderKeys_ne_eq hkeyed hordered hrandom)
  rw [selectedIds, selectedIds, hsorted]

end Conditions

/-! ## Queries -/

/-- A query has the same answer where the same tables are and the same is seen in them. -/
theorem runOn_run_of_same {α : Type} {tables : List Table} {params : List Value}
    {f : Contents → α} (hhas : ∀ t, s'.contents.has t = s.contents.has t)
    (hsame : f s'.contents = f s.contents) :
    (run tables params f).runOn s' = (((run tables params f).runOn s).1, s') := by
  have hread : (Work.read tables params f).runOn s' =
      (((Work.read tables params f).runOn s).1, s') := by
    simp only [Work.runOn_read, hhas, hsame]
  rw [run, Work.runOn_adapt, Work.runOn_adapt, hread]

/-- A page is the same where the same tables are and the same is selected. -/
theorem runOn_selectPostIds_of_same (hhas : ∀ t, s'.contents.has t = s.contents.has t)
    (hsame : selectedIds s'.contents plan limit offset = selectedIds s.contents plan limit offset) :
    (selectPostIds plan limit offset).runOn s' =
      (((selectPostIds plan limit offset).runOn s).1, s') := by
  cases hstatement : plan.selectStatement limit offset with
  | error e =>
    have hrefused (u : Store) : (selectPostIds plan limit offset).runOn u = (.error e, u) := by
      rw [selectPostIds, hstatement]
      rfl
    rw [hrefused, hrefused]
  | ok statement =>
    have hrun (u : Store) : (selectPostIds plan limit offset).runOn u =
        (run (sourceTables plan ++ orderTables plan.order) statement.params fun c =>
          selectedIds c plan limit offset).runOn u := by
      rw [selectPostIds, hstatement]
      rfl
    rw [hrun, hrun]
    exact runOn_run_of_same hhas hsame

/-- A page of a plan that is not in random order is the same wherever the records stand. -/
theorem runOn_selectPostIds_of_rearranged (h : s.contents.Rearranged s'.contents)
    (hkeyed : s.contents.Keyed) (hstorable : ∀ p ∈ s.contents.posts, p.Storable)
    (hordered : plan.WellOrdered) (hrandom : plan.order.key ≠ .random) (limit : Option Int)
    (offset : Int) :
    (selectPostIds plan limit offset).runOn s' =
      (((selectPostIds plan limit offset).runOn s).1, s') :=
  runOn_selectPostIds_of_same h.has
    (selectedIds_eq_of_rearranged h hkeyed hstorable hordered hrandom limit offset)

end Search

end Imageboard
