import Imageboard.Proofs.Actions
import Imageboard.Proofs.Tagging.Substituting

/-!
# Tags have normal names

Tags are made in one place only, which stores the normal form of a name and looks for it first, and no work
renames a tag. So in a store that began without tags, each name is a normal form and stands once, however
the store was used. Hence all spellings with one normal form stand for one tag, for good.
-/

namespace Imageboard

open Text

namespace TagName

/-- Names that can be stored, without blanks, and each of them once. -/
structure AllNormal (names : List String) : Prop where
  storable : ∀ name ∈ names, Storable name
  not_blank : ∀ name ∈ names, ∀ x ∈ name.toList, isBlank x = false
  distinct : names.Nodup

/-- Where there are no names, all are normal. -/
theorem allNormal_nil : AllNormal [] :=
  ⟨by simp, by simp, List.nodup_nil⟩

/-- A normal form that is not empty can be added to normal names if it is not among them. -/
theorem AllNormal.append {names : List String} {name : String} (h : AllNormal names)
    (hne : normalize name ≠ "") (hnew : normalize name ∉ names) :
    AllNormal (names ++ [normalize name]) where
  storable := by
    simp only [List.mem_append, List.mem_singleton]
    rintro x (hx | rfl)
    · exact h.storable x hx
    · exact storable_normalize hne
  not_blank := by
    simp only [List.mem_append, List.mem_singleton]
    rintro x (hx | rfl)
    · exact h.not_blank x hx
    · rw [normalize, String.toList_ofList]
      exact Query.not_isBlank_normalizeChars _
  distinct := List.nodup_append_comm.1 (List.nodup_cons.2 ⟨hnew, h.distinct⟩)

end TagName

namespace Contents

/-- All tables are there and the tags have normal names. -/
structure NormallyNamed (c : Contents) : Prop where
  names : TagName.AllNormal (c.tags.map (·.name))
  whole : c.missing = []

variable {c : Contents}

/-- A new store has no tags. -/
theorem normallyNamed_of_initial {cs : Categories} (hnew : initial cs = .ok c) : c.NormallyNamed := by
  obtain ⟨rows, rfl⟩ := initial_eq_ok hnew
  exact ⟨TagName.allNormal_nil, rfl⟩

/-- Whether tags are normally named is seen from their names. -/
theorem seesTagNames_normallyNamed : SeesTagNames NormallyNamed where
  congr _ _ _ hnames hc := ⟨hnames ▸ hc.names, hc.whole⟩
  addTag c _ _ _ t _ hne hc hd := by
    obtain ⟨hnew, hname, rfl⟩ := addTag_eq_ok hd
    refine ⟨?_, hc.whole⟩
    rw [List.map_append, List.map_singleton, hname]
    exact hc.names.append hne hnew
  touch _ _ _ hc := ⟨hc.names, hc.whole⟩

/-- Tags that are normally named stay so whatever is done. -/
theorem outlasts_normallyNamed : Outlasts NormallyNamed where
  tagging := by
    refine Store.taggingKeeps_of_names seesTagNames_normallyNamed (fun c _ _ _ _ hc hd => ?_)
      fun _ c _ _ _ hc hd => ?_
    · obtain ⟨-, rfl⟩ := addUser_eq_ok hd
      exact ⟨hc.names, hc.whole⟩
    · obtain ⟨-, rfl⟩ := addPost_eq_ok hd
      exact ⟨hc.names, hc.whole⟩
  singlePosts := Store.singlePostsKeep_of_names seesTagNames_normallyNamed
  recount c hc := by
    have hnames : c.recountAll.tags.map (·.name) = c.tags.map (·.name) := map_tags_mapTags fun _ => rfl
    exact ⟨hnames ▸ hc.names, hc.whole⟩
  relationships kind _ _ hc := by cases kind <;> exact ⟨hc.names, hc.whole⟩
  pages _ _ _ hc := ⟨hc.names, hc.whole⟩
  collections _ _ _ _ _ _ hc := ⟨hc.names, hc.whole⟩
  withAllTables _ hc := ⟨hc.names, rfl⟩

end Contents

namespace Store

open Work

variable {s u : Store} {t : Tag} {name : String} {category : Option Int}

/-- The tag of a normal form is found and nothing changes. -/
theorem runOn_findOrCreateTag_of_found (htable : s.contents.has .tags)
    (hne : TagName.normalize name ≠ "")
    (hfound : s.contents.findTag? (TagName.normalize name) = some t) (category : Option Int) :
    (findOrCreateTag name category).runOn s = (.ok t, s) := by
  have hreadable : Readable [.tags] [] s := ⟨by simpa using htable, rfl⟩
  rw [findOrCreateTag]
  dsimp only
  rw [if_neg (by rwa [String.isEmpty_iff]), getTag,
    runOn_bind_of_ok (runOn_read_of_readable hreadable _), hfound]
  rfl

/-- When a tag is made or found for a name, it is the tag of the normal form, which is not empty. -/
theorem leads_findOrCreateTag_found (name : String) (category : Option Int) :
    Leads (fun _ => True) (findOrCreateTag name category) fun t c =>
      TagName.normalize name ≠ "" ∧ c.findTag? (TagName.normalize name) = some t := by
  rw [findOrCreateTag]
  dsimp only
  refine Leads.ite (fun _ => leads_throw _) fun hne => ?_
  rw [String.isEmpty_iff] at hne
  refine (leads_read _ _ _).bind fun found => ?_
  cases found with
  | some t =>
    refine Leads.imp (leads_pure (Q := fun t c => TagName.normalize name ≠ "" ∧
      c.findTag? (TagName.normalize name) = some t) t) ?_ fun _ _ h => h
    rintro c ⟨-, hfound⟩
    exact ⟨hne, hfound.symm⟩
  | none =>
    refine leads_get.bind fun s => leads_write fun c t d hc hd => ?_
    obtain ⟨hnew, hname, rfl⟩ := Contents.addTag_eq_ok hd
    refine ⟨hne, ?_⟩
    rw [Contents.findTag?, List.find?_append, ← Contents.findTag?, ← hc.2, Option.none_or,
      List.find?_singleton]
    simp [hname]

/-- Where tags are normally named, a tag is found for the spellings with the normal form of its name. -/
theorem runOn_findOrCreateTag_eq_ok_iff (h : s.contents.NormallyNamed) (ht : t ∈ s.contents.tags)
    (spelling : String) (category : Option Int) :
    (findOrCreateTag spelling category).runOn s = (.ok t, s) ↔
      TagName.normalize spelling = TagName.normalize t.name := by
  have hname := h.names.storable t.name (List.mem_map_of_mem ht)
  rw [hname.normal]
  constructor
  · intro hrun
    obtain ⟨-, hfound⟩ := leads_findOrCreateTag_found spelling category s t s trivial hrun
    exact ((Contents.findTag?_eq_some_iff h.names.distinct).1 hfound).2.symm
  · intro hspelling
    have hfound : s.contents.findTag? (TagName.normalize spelling) = some t :=
      (Contents.findTag?_eq_some_iff h.names.distinct).2 ⟨ht, hspelling.symm⟩
    refine runOn_findOrCreateTag_of_found ?_ (hspelling ▸ hname.ne) hfound category
    rw [Contents.has, h.whole]
    rfl

/-- In a store that began without tags, however it was used since, amid whatever others and whichever work
failed, each tag has a name that is not empty, has no blanks, is its own normal form and is the name of no other tag. A tag that
is found or made for one spelling is found for all spellings with the same normal form, and nothing changes
then. So a tag that is there is found for the spellings whose normal form is that of its name, and for no
others. -/
theorem tagNames_normal {cs : Categories} {c : Contents} (hnew : Contents.initial cs = .ok c)
    (clock : Moment) (actions : List (Action × Others)) :
    let s := (Store.ofContents c clock cs).afterAll actions
    (∀ t ∈ s.contents.tags, t.name ≠ "" ∧ (∀ x ∈ t.name.toList, isBlank x = false) ∧
      TagName.normalize t.name = t.name) ∧
    (s.contents.tags.map (·.name)).Nodup ∧
    (∀ first second, TagName.normalize first = TagName.normalize second →
      ∀ category category' t u, (findOrCreateTag first category).runOn s = (.ok t, u) →
        t ∈ u.contents.tags ∧ (findOrCreateTag second category').runOn u = (.ok t, u)) ∧
    ∀ t ∈ s.contents.tags, ∀ spelling category,
      (findOrCreateTag spelling category).runOn s = (.ok t, s) ↔
        TagName.normalize spelling = TagName.normalize t.name := by
  intro s
  have hstart : (ofContents c clock cs).Everywhere Contents.NormallyNamed :=
    everywhere_of_closed rfl rfl (Contents.normallyNamed_of_initial hnew)
  have hs : s.Everywhere Contents.NormallyNamed :=
    hstart.afterAll Contents.outlasts_normallyNamed actions
  have hnames := hs.contents.names
  refine ⟨fun t ht => ?_, hnames.distinct, ?_, fun t ht spelling category =>
    runOn_findOrCreateTag_eq_ok_iff hs.contents ht spelling category⟩
  · have hname := List.mem_map_of_mem (f := (·.name)) ht
    exact ⟨(hnames.storable _ hname).ne, hnames.not_blank _ hname, (hnames.storable _ hname).normal⟩
  · intro first second hsame category category' t u hrun
    obtain ⟨-, hfound⟩ := leads_findOrCreateTag_found first category s t u trivial hrun
    have hu : u.contents.NormallyNamed :=
      (Contents.outlasts_normallyNamed.tagging.findOrCreateTag first category).contents_of_runOn
        hs.contents hrun
    obtain ⟨ht, hname⟩ := (Contents.findTag?_eq_some_iff hu.names.distinct).1 hfound
    refine ⟨ht, (runOn_findOrCreateTag_eq_ok_iff hu ht second category').2 ?_⟩
    rw [hname, TagName.normalize_normalize, hsame]

/-- The tag made for one spelling of a name is found for another. -/
theorem tagNames_normal_longHair :
    ∃ c, Contents.initial .standard = .ok c ∧
      let s := (Store.ofContents c ⟨0, 0⟩ .standard).afterAll
        [(.operation (.findOrCreateTag " Long  HAIR " none), .absent),
          (.operation (.meanwhile ⟨1, 0⟩ true false), .absent)]
      ∃ t ∈ s.contents.tags, t.name = "long_hair" ∧
        (findOrCreateTag "long\u3000hair" none).runOn s = (.ok t, s) := by
  have hnew : Contents.initial .standard = .ok _ := rfl
  refine ⟨_, hnew, ?_⟩
  intro s
  have hnames : s.contents.tags.map (·.name) = ["long_hair"] := by decide +kernel
  obtain ⟨t, ht, hname⟩ := List.mem_map.1 (hnames ▸ List.mem_singleton_self "long_hair")
  have hspelling : TagName.normalize "long\u3000hair" = TagName.normalize t.name := by
    rw [hname]
    decide +kernel
  exact ⟨t, ht, hname,
    ((tagNames_normal hnew ⟨0, 0⟩ _).2.2.2 t ht "long\u3000hair" none).2 hspelling⟩

end Store

end Imageboard
