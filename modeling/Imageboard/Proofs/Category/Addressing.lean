import Imageboard.Proofs.Category.Accepting
import Imageboard.Proofs.Lookup
import Imageboard.Proofs.Search.Sorting
import Imageboard.Proofs.Text.Trimming

/-!
# Categories that can be addressed

A category of a configuration is asked for by its names, by its code, and by its metatag, which counts its
tags on posts and orders posts by their number. Names are looked up without blanks at the ends, but taken
as they are written; and of categories with one short name the last takes the metatag and the first the
order. So a category is addressed by a name exactly if trimming leaves one of its names, by its metatag
exactly if no later category shares its short name, and by its order exactly if no earlier one does.
-/

namespace Imageboard

/-! ## Names and codes -/

/-- A string without the blanks at its ends. -/
def trimmed (s : String) : String :=
  String.ofList (Text.trim s.toList)

namespace Categories

open Query

variable {categories : Categories} {c d : Category}

namespace Accepted

/-- Codes are distinct. -/
theorem nodup_codes (h : categories.Accepted) : (categories.toList.map (·.code)).Nodup :=
  List.pairwise_map.2 (h.ordered.imp Int.ne_of_lt)

/-- A category is known by its code. -/
theorem eq_of_code_eq (h : categories.Accepted) (hc : c ∈ categories.toList)
    (hd : d ∈ categories.toList) (hcode : c.code = d.code) : c = d :=
  List.inj_on_of_nodup_map h.nodup_codes hc hd hcode

/-- A category is known by each of its keys. -/
theorem eq_of_mem_keys (h : categories.Accepted) (hc : c ∈ categories.toList)
    (hd : d ∈ categories.toList) {key : String} (hkey : key ∈ c.keys) (hkey' : key ∈ d.keys) : c = d := by
  have hsymm : Std.Symm (Function.onFun List.Disjoint Category.keys) := ⟨fun _ _ h => h.symm⟩
  by_contra hne
  exact (List.nodup_flatMap.1 h.distinct).2.forall hc hd hne hkey hkey'

/-- A name finds a category exactly if it is one of its names, trimmed and in lower case. -/
theorem find?_eq_some_iff (h : categories.Accepted) (hc : c ∈ categories.toList) {name : String} :
    categories.find? name = some c ↔ trimmed (Text.lowerString name) ∈ c.name :: c.aliases := by
  have hkey : String.ofList (Text.lower (Text.trim name.toList)) = trimmed (Text.lowerString name) := by
    rw [trimmed, Text.lowerString, String.toList_ofList, Text.lower_trim]
  rw [find?, hkey, ← h.keys_eq c hc]
  constructor
  · intro hfound
    simpa using List.find?_some hfound
  · intro hmem
    refine find?_eq_some_of_unique hc (by simpa using hmem) fun d hd hmem' => ?_
    exact h.eq_of_mem_keys hd hc (by simpa using hmem') hmem

/-- A name has the code of a category exactly if it is one of its names, trimmed and in lower case. -/
theorem codeOf_eq_ok_iff (h : categories.Accepted) (hc : c ∈ categories.toList) {name : String} :
    categories.codeOf name = .ok c.code ↔ trimmed (Text.lowerString name) ∈ c.name :: c.aliases := by
  rw [← h.find?_eq_some_iff hc, codeOf]
  cases hfound : categories.find? name with
  | none => simp
  | some d =>
    simp only [Except.ok.injEq, Option.some.injEq]
    exact ⟨h.eq_of_code_eq (List.mem_of_find?_eq_some hfound) hc, congrArg Category.code⟩

/-- The code of a category has its name. -/
theorem nameOf_code (h : categories.Accepted) (hc : c ∈ categories.toList) :
    categories.nameOf c.code = c.name := by
  have hfound : categories.toList.find? (·.code = c.code) = some c :=
    (find?_key_eq_some_iff h.nodup_codes).2 ⟨hc, rfl⟩
  rw [nameOf, hfound]

/-! ## Metatags -/

/-- The metatag of a category ends as all of them do. -/
theorem suffix_countMetatag (c : Category) : "tags".toList <:+ c.countMetatag.toList :=
  ⟨c.shortName.toList, String.toList_append.symm⟩

/-- Categories have one metatag exactly if they have one short name. -/
theorem countMetatag_eq_iff : c.countMetatag = d.countMetatag ↔ c.shortName = d.shortName := by
  rw [Category.countMetatag, Category.countMetatag, ← String.toList_inj, String.toList_append,
    String.toList_append, List.append_left_inj, String.toList_inj]

/-- The metatag of a category is in lower case. -/
theorem lowerString_countMetatag (h : categories.Accepted) (hc : c ∈ categories.toList) :
    Text.lowerString c.countMetatag = c.countMetatag := by
  have hshort : Text.lower c.shortName.toList = c.shortName.toList := by
    simpa [Text.lowerString] using congrArg String.toList (h.shortName_eq c hc)
  have htags : Text.lower "tags".toList = "tags".toList := by decide +kernel
  have hsettled : ∀ x ∈ c.countMetatag.toList, Text.Settled x := by
    intro x hx
    rw [Category.countMetatag, String.toList_append, List.mem_append, ← hshort, ← htags] at hx
    rcases hx with hx | hx
    · exact (Text.lowered_lower _).settled x hx
    · exact (Text.lowered_lower _).settled x hx
  rw [Text.lowerString, Text.lower, Text.lowerAfter_eq_self hsettled, String.ofList_toList]

/-- Among categories in order, the first that has a metatag is the first that shares the short name. -/
theorem exists_find?_countMetatag {list : List Category} {r : Category → Category → Prop}
    (hordered : list.Pairwise r) (hrefl : ∀ c, r c c) (hc : c ∈ list) :
    ∃ d ∈ list, list.find? (·.countMetatag = c.countMetatag) = some d ∧ d.shortName = c.shortName ∧
      ∀ e ∈ list, e.shortName = c.shortName → r d e := by
  have hsome : (list.find? (·.countMetatag = c.countMetatag)).isSome :=
    List.find?_isSome.2 ⟨c, hc, by simp⟩
  obtain ⟨d, hd⟩ := Option.isSome_iff_exists.1 hsome
  exact ⟨d, List.mem_of_find?_eq_some hd, hd, countMetatag_eq_iff.1 (by simpa using List.find?_some hd),
    fun e he hshort =>
      rel_of_find?_eq_some hd hordered hrefl he (by simpa using countMetatag_eq_iff.2 hshort)⟩

/-- The metatag of a category reads ranges of the number of tags of the last category that shares the
short name. -/
theorem exists_evaluate_countMetatag (h : categories.Accepted) (hc : c ∈ categories.toList) :
    ∃ d ∈ categories.toList, d.shortName = c.shortName ∧
      (∀ e ∈ categories.toList, e.shortName = c.shortName → e.code ≤ d.code) ∧
      ∀ (viewer : Viewer) (now : Moment) (value : String),
        (Registry.ofCategories categories).evaluate viewer now c.countMetatag value =
          (QuantityKind.integer.readRange value).map fun r =>
            .select (.range .categoryTagCount r (some d.code)) := by
  -- The registry is searched from its end, where the categories stand in the reverse order.
  have hordered : categories.toList.reverse.Pairwise fun d e => e.code ≤ d.code :=
    List.pairwise_reverse.2 (h.ordered.imp Int.le_of_lt)
  obtain ⟨d, hmem, hd, hshort, hlast⟩ :=
    exists_find?_countMetatag hordered (fun _ => Int.le_refl _) (List.mem_reverse.2 hc)
  refine ⟨d, List.mem_reverse.1 hmem, hshort, fun e he => hlast e (List.mem_reverse.2 he),
    fun viewer now value => ?_⟩
  have hfound : (Registry.ofCategories categories).find? c.countMetatag =
      some (.quantity .categoryTagCount .integer (some d.code)) := by
    rw [Registry.find?, Registry.ofCategories, List.reverse_append, List.find?_append, ← List.map_reverse,
      List.find?_map]
    simp only [Function.comp_def, hd]
    rfl
  rw [Registry.evaluate, h.lowerString_countMetatag hc, hfound]
  rfl

/-! ## Orders -/

/-- No order that is read ends as the metatags of categories do, but for theirs. -/
theorem countMetatag_ne (c : Category) {s : String} (hs : ¬ "tags".toList <:+ s.toList) :
    c.countMetatag ≠ s := by
  rintro rfl
  exact hs (suffix_countMetatag c)

/-- The metatag of a category has no direction as its ending. -/
theorem splitDirection_countMetatag (c : Category) :
    splitDirection c.countMetatag = (c.countMetatag, .desc) := by
  have hnone {ending : String} (hs : ¬ ending.toList <:+ "tags".toList)
      (hs' : ¬ "tags".toList <:+ ending.toList) : dropEnding? ending c.countMetatag = none := by
    refine if_neg fun hend => ?_
    rcases List.suffix_or_suffix_of_suffix (List.isSuffixOf_iff_suffix.1 hend)
      (suffix_countMetatag c) with hend | hend
    · exact hs hend
    · exact hs' hend
  rw [splitDirection, hnone (by decide) (by decide), hnone (by decide) (by decide)]

/-- The order by the metatag of a category is by the number of tags of the first category that shares the
short name. -/
theorem exists_ofText?_countMetatag (h : categories.Accepted) (hc : c ∈ categories.toList) :
    ∃ d ∈ categories.toList, d.shortName = c.shortName ∧
      (∀ e ∈ categories.toList, e.shortName = c.shortName → d.code ≤ e.code) ∧
      Order.ofText? categories c.countMetatag =
        some ⟨.categoryTags c.countMetatag, .desc, [.integer d.code]⟩ := by
  obtain ⟨d, hmem, hd, hshort, hfirst⟩ :=
    exists_find?_countMetatag (h.ordered.imp Int.le_of_lt) (fun _ => Int.le_refl _) hc
  refine ⟨d, hmem, hshort, hfirst, ?_⟩
  have hcolumn : columnOrders.find? (·.name = c.countMetatag) = none := by
    refine List.find?_eq_none.2 fun k hk => ?_
    have hname : ∀ k ∈ columnOrders, ¬ "tags".toList <:+ k.name.toList := by decide
    simpa using (countMetatag_ne c (hname k hk)).symm
  unfold Order.ofText?
  rw [h.lowerString_countMetatag hc]
  split
  case h_8 =>
    rw [splitDirection_countMetatag]
    dsimp only
    rw [hcolumn, hd]
    rfl
  all_goals
    next heq => exact absurd heq (countMetatag_ne c (by decide))

end Accepted

end Categories

/-! ## Numbers of tags -/

/-- The number of tags on a post that are of the category with a code. -/
def Contents.tagsIn (contents : Contents) (code : Int) (p : Post) : Nat :=
  (contents.tagsOf p.id).countP fun t => t.category = code

namespace Search

open Query

variable {categories : Categories} {metatag value : String} {a b code : Int}

/-- Whether a metatag counts the tags of the category with a code: each range of whole numbers becomes a
predicate that says of each post whether the number of these tags on it lies in the range. -/
def CountsTagsOf (categories : Categories) (metatag : String) (code : Int) : Prop :=
  ∀ (viewer : Viewer) (now : Moment) (value : String) (r : Range),
    QuantityKind.integer.readRange value = .ok r → ∃ predicate,
      (Registry.ofCategories categories).evaluate viewer now metatag value = .ok (.select predicate) ∧
        ∀ (contents : Contents) (p : Post),
          truthOf contents p predicate = inRange (.integer (contents.tagsIn code p)) r

/-- Whether a value of the metatag for orders stands for an order by the number of tags of the category
with a code, those with most of them first. -/
def OrdersByTagsOf (categories : Categories) (value : String) (code : Int) : Prop :=
  ∃ o, Order.ofText? categories value = some o ∧ ∀ (contents : Contents) (rows : List Row),
    (sortRows contents o rows).Perm rows ∧
      (sortRows contents o rows).Pairwise fun r r' =>
        contents.tagsIn code r'.post ≤ contents.tagsIn code r.post

/-- The number of tags of a category that a predicate or an order goes by is that of the tags on the
post. -/
theorem categoryTagCount_some (contents : Contents) (p : Post) (code : Int) :
    categoryTagCount contents p (some code) = contents.tagsIn code p := by
  simp [categoryTagCount, Contents.tagsIn]

/-- A metatag that reads ranges of the number of tags of a category counts these. -/
theorem countsTagsOf_of_evaluate (h : ∀ (viewer : Viewer) (now : Moment) (value : String),
    (Registry.ofCategories categories).evaluate viewer now metatag value =
      (QuantityKind.integer.readRange value).map fun r =>
        .select (.range .categoryTagCount r (some code))) : CountsTagsOf categories metatag code := by
  intro viewer now value r hr
  refine ⟨.range .categoryTagCount r (some code), by rw [h, hr]; rfl, fun contents p => ?_⟩
  rw [truthOf, columnValue, categoryTagCount_some]

/-- The place of a row in an order by the number of tags of a category: this number, and then the id. -/
def tagPlace (contents : Contents) (code : Int) (row : Row) : ℤ ×ₗ ℤ :=
  toLex ((contents.tagsIn code row.post : ℤ), row.post.id)

/-- In an order by the number of tags of a category a row may stand before those whose places are not
greater. -/
theorem mayPrecede_categoryTags (contents : Contents) (key : String) (code : Int) (row row' : Row) :
    mayPrecede contents ⟨.categoryTags key, .desc, [.integer code]⟩ row row' = true ↔
      tagPlace contents code row' ≤ tagPlace contents code row := by
  have hkeys (row : Row) : sortKeys contents ⟨.categoryTags key, .desc, [.integer code]⟩ row =
      [(.integer (contents.tagsIn code row.post), .desc), (.integer row.post.id, .desc)] := by
    rw [← categoryTagCount_some]
    rfl
  have horder (m n k l : Int) : orderKeys [(.integer m, .desc), (.integer k, .desc)]
      [(.integer n, .desc), (.integer l, .desc)] = compare (toLex (n, l)) (toLex (m, k)) := by
    have hinteger (m n : Int) : (Value.integer m).order (.integer n) = compare m n := rfl
    have hlex : compare (toLex (n, l)) (toLex (m, k)) = (compare n m).then (compare l k) := rfl
    simp only [orderKeys, hinteger, hlex, reduceCtorEq, if_false]
    cases compare n m <;> cases compare l k <;> rfl
  rw [mayPrecede, hkeys, hkeys, horder, bne_iff_ne]
  exact compare_le_iff_le

/-- Rows are put in order of the number of tags of a category. -/
theorem pairwise_sortRows_categoryTags (contents : Contents) (key : String) (code : Int)
    (rows : List Row) :
    (sortRows contents ⟨.categoryTags key, .desc, [.integer code]⟩ rows).Pairwise fun row row' =>
      contents.tagsIn code row'.post ≤ contents.tagsIn code row.post := by
  rw [sortRows_eq_mergeSort]
  refine (List.pairwise_mergeSort (fun row row' row'' h h' => ?_) (fun row row' => ?_) rows).imp
    fun {row row'} hle => ?_
  · rw [mayPrecede_categoryTags] at h h' ⊢
    exact h'.trans h
  · rw [Bool.or_eq_true, mayPrecede_categoryTags, mayPrecede_categoryTags]
    exact le_total _ _
  · exact Int.ofNat_le.1 (Prod.Lex.monotone_fst _ _ ((mayPrecede_categoryTags _ _ _ _ _).1 hle))

/-! ## Codes told apart -/

/-- Contents with a tag of one category on the first post and a tag of another on the second. -/
def twoTagContents (a b : Int) : Contents :=
  { Contents.empty with
    tags := [⟨1, "first", a, 1, .null, .null⟩, ⟨2, "second", b, 1, .null, .null⟩]
    taggings := [⟨1, 1⟩, ⟨2, 2⟩] }

/-- A post of which only the id matters. -/
def plainPost (id : Int) : Post :=
  PostDraft.toPost {} id .null

/-- How many tags of a category are on either of the two posts. -/
theorem tagsIn_twoTagContents (a b code : Int) :
    (twoTagContents a b).tagsIn code (plainPost 1) = (if a = code then 1 else 0) ∧
      (twoTagContents a b).tagsIn code (plainPost 2) = if b = code then 1 else 0 := by
  have hfirst : (twoTagContents a b).tagsOf (plainPost 1).id = [⟨1, "first", a, 1, .null, .null⟩] := rfl
  have hsecond : (twoTagContents a b).tagsOf (plainPost 2).id = [⟨2, "second", b, 1, .null, .null⟩] := rfl
  rw [Contents.tagsIn, Contents.tagsIn, hfirst, hsecond]
  simp [List.countP_cons]

/-- A metatag counts the tags of one category only. -/
theorem CountsTagsOf.code_eq (ha : CountsTagsOf categories metatag a)
    (hb : CountsTagsOf categories metatag b) : a = b := by
  have hone : QuantityKind.integer.readRange "1" = .ok (.eq (.integer 1)) := by decide +kernel
  obtain ⟨p, hp, hcount⟩ := ha .anonymous ⟨0, 0⟩ "1" _ hone
  obtain ⟨q, hq, hcount'⟩ := hb .anonymous ⟨0, 0⟩ "1" _ hone
  obtain rfl : p = q := by
    rw [hp] at hq
    simpa [Effect.select] using hq
  have hsame := (hcount (twoTagContents a b) (plainPost 1)).symm.trans (hcount' _ _)
  rw [(tagsIn_twoTagContents a b a).1, (tagsIn_twoTagContents a b b).1, if_pos rfl] at hsame
  by_contra hne
  rw [if_neg hne] at hsame
  revert hsame
  decide

/-- An order is by the number of tags of one category only. -/
theorem OrdersByTagsOf.code_eq (ha : OrdersByTagsOf categories value a)
    (hb : OrdersByTagsOf categories value b) : a = b := by
  obtain ⟨o, ho, hsorted⟩ := ha
  obtain ⟨o', ho', hsorted'⟩ := hb
  obtain rfl := Option.some.inj (ho.symm.trans ho')
  by_contra hne
  obtain ⟨hperm, horder⟩ := hsorted (twoTagContents a b) [⟨plainPost 1, none⟩, ⟨plainPost 2, none⟩]
  obtain ⟨-, horder'⟩ := hsorted' (twoTagContents a b) [⟨plainPost 1, none⟩, ⟨plainPost 2, none⟩]
  let before (row row' : Row) : Prop :=
    (twoTagContents a b).tagsIn a row'.post ≤ (twoTagContents a b).tagsIn a row.post ∧
      (twoTagContents a b).tagsIn b row'.post ≤ (twoTagContents a b).tagsIn b row.post
  have hsymm : Std.Symm fun row row' => before row row' ∨ before row' row := ⟨fun _ _ h => h.symm⟩
  have hboth := ((horder.and horder').imp fun h => Or.inl h : List.Pairwise
    (fun row row' => before row row' ∨ before row' row) _).forall
    (hperm.mem_iff.2 List.mem_cons_self) (hperm.mem_iff.2 (List.mem_cons_of_mem _ List.mem_cons_self))
    (by simp [plainPost, PostDraft.toPost])
  obtain ⟨hfirst, hsecond⟩ := tagsIn_twoTagContents a b a
  obtain ⟨hfirst', hsecond'⟩ := tagsIn_twoTagContents a b b
  -- The second post has more tags of the second category, and the first more of the first.
  rcases hboth with ⟨-, hle⟩ | ⟨hle, -⟩
  · simp [hfirst', hsecond', hne] at hle
  · simp [hfirst, hsecond, Ne.symm hne] at hle

end Search

/-! ## What addresses a category -/

section Addressed

open Search

variable {categories : Categories} {c : Category}

/-- The metatag of a category counts its tags exactly if no later category shares its short name. -/
theorem Categories.Accepted.countsTagsOf_iff (h : categories.Accepted) (hc : c ∈ categories.toList) :
    CountsTagsOf categories c.countMetatag c.code ↔
      ∀ d ∈ categories.toList, d.shortName = c.shortName → d.code ≤ c.code := by
  obtain ⟨last, hlast, hshort, hle, heval⟩ := h.exists_evaluate_countMetatag hc
  have hcounts := countsTagsOf_of_evaluate heval
  constructor
  · intro hc'
    rwa [← hcounts.code_eq hc']
  · intro hle'
    rwa [Int.le_antisymm (hle c hc rfl) (hle' last hlast hshort)]

/-- The metatag of a category orders by the number of its tags exactly if no earlier category shares its
short name. -/
theorem Categories.Accepted.ordersByTagsOf_iff (h : categories.Accepted) (hc : c ∈ categories.toList) :
    OrdersByTagsOf categories c.countMetatag c.code ↔
      ∀ d ∈ categories.toList, d.shortName = c.shortName → c.code ≤ d.code := by
  obtain ⟨first, hfirst, hshort, hle, hread⟩ := h.exists_ofText?_countMetatag hc
  have horders : OrdersByTagsOf categories c.countMetatag first.code := by
    refine ⟨_, hread, fun contents rows => ⟨sortRows_perm _ _, ?_⟩⟩
    exact pairwise_sortRows_categoryTags contents _ _ rows
  constructor
  · intro hc'
    rwa [← horders.code_eq hc']
  · intro hle'
    rwa [Int.le_antisymm (hle' first hfirst hshort) (hle c hc rfl)]

/-- How each category of a configuration is addressed. A name has the code of a category, in any letter
case, exactly if one of its names is left when the blanks at the ends are dropped; its code has its name;
its metatag counts its tags exactly if none of the categories that share the short name has a greater code,
and stands for an order by their number exactly if none has a smaller one. -/
theorem addressed_iff {fields : List (String × Json)} {config : Config}
    (hconfig : Config.ofFields fields = .ok config) (hc : c ∈ config.categories.toList) :
    (∀ key ∈ c.name :: c.aliases, ∀ name, Text.lowerString name = key →
      (config.categories.codeOf name = .ok c.code ↔ trimmed key ∈ c.name :: c.aliases)) ∧
    config.categories.nameOf c.code = c.name ∧
    (CountsTagsOf config.categories c.countMetatag c.code ↔
      ∀ d ∈ config.categories.toList, d.shortName = c.shortName → d.code ≤ c.code) ∧
    (OrdersByTagsOf config.categories c.countMetatag c.code ↔
      ∀ d ∈ config.categories.toList, d.shortName = c.shortName → c.code ≤ d.code) := by
  have h := Config.accepted_of_ofFields hconfig
  refine ⟨fun key _ name hname => ?_, h.nameOf_code hc, h.countsTagsOf_iff hc, h.ordersByTagsOf_iff hc⟩
  rw [h.codeOf_eq_ok_iff hc, hname]

/-- The entry of a category in a configuration. -/
def categoryEntry (code : Int) (name short : String) (aliases : List String) : Json :=
  .object [("code", .integer code), ("name", .text name), ("short_name", .text short),
    ("aliases", .list (aliases.map .text))]

/-- Species are addressed by each of their names, and by their metatag in both uses. -/
theorem addressed_iff_species :
    let fields := [("categories", Json.list
      [categoryEntry 0 "General" "GEN" [], categoryEntry 7 "Species" "Spec" ["Animal kind"]])]
    let config := Config.standardWith
      ⟨[⟨0, "general", "gen", []⟩, ⟨7, "species", "spec", ["animal kind"]⟩]⟩
    let c : Category := ⟨7, "species", "spec", ["animal kind"]⟩
    Config.ofFields fields = .ok config ∧ c ∈ config.categories.toList ∧
      config.categories.codeOf "ANIMAL Kind" = .ok 7 ∧ config.categories.nameOf 7 = "species" ∧
      CountsTagsOf config.categories "spectags" 7 ∧ OrdersByTagsOf config.categories "spectags" 7 := by
  intro fields config c
  have hconfig : Config.ofFields fields = .ok config :=
    Config.ofFields_categories (by decide +kernel) (by decide) (by decide +kernel) (by decide)
  have hc : c ∈ config.categories.toList := by decide
  obtain ⟨hnames, hcode, hcounts, horders⟩ := addressed_iff hconfig hc
  exact ⟨hconfig, hc,
    (hnames "animal kind" (by decide) "ANIMAL Kind" (by decide +kernel)).2 (by decide +kernel), hcode,
    hcounts.2 (by decide), horders.2 (by decide)⟩

/-- General tags are not counted by the metatag that their category shares with artists, artists do not
order posts by it, and what is written with a blank in front is not found by its name. -/
theorem accepted_not_addressed :
    let fields := [("categories", Json.list
      [categoryEntry 0 "general" "x" [], categoryEntry 1 "artist" "x" [], categoryEntry 2 " wide" "w" []])]
    let config := Config.standardWith
      ⟨[⟨0, "general", "x", []⟩, ⟨1, "artist", "x", []⟩, ⟨2, " wide", "w", []⟩]⟩
    Config.ofFields fields = .ok config ∧ ¬ CountsTagsOf config.categories "xtags" 0 ∧
      ¬ OrdersByTagsOf config.categories "xtags" 1 ∧ config.categories.codeOf " wide" ≠ .ok 2 := by
  intro fields config
  have hconfig : Config.ofFields fields = .ok config :=
    Config.ofFields_categories (by decide +kernel) (by decide) (by decide +kernel) (by decide)
  have h := Config.accepted_of_ofFields hconfig
  have hgeneral : (⟨0, "general", "x", []⟩ : Category) ∈ config.categories.toList := by decide
  have hartist : (⟨1, "artist", "x", []⟩ : Category) ∈ config.categories.toList := by decide
  have hwide : (⟨2, " wide", "w", []⟩ : Category) ∈ config.categories.toList := by decide
  exact ⟨hconfig, (h.countsTagsOf_iff hgeneral).not.2 (by decide),
    (h.ordersByTagsOf_iff hartist).not.2 (by decide),
    (h.codeOf_eq_ok_iff hwide).not.2 (by decide +kernel)⟩

end Addressed

end Imageboard
