import Imageboard.Proofs.Store.Transactions
import Imageboard.Proofs.Tagging.Counts
import Imageboard.Proofs.Tagging.Keeping

/-!
# Calls that are cut short

The tags of a single post are changed name by name: a tagging is put in or taken away, and then the post
count of its tag is shifted by one. These are two statements, and where nothing is under way each of them is
committed by itself, so others can take hold of the store between them. The main statements are that such a
call keeps the post counts right if it is not cut short there, however else it ends, and that one that is cut
short leaves a count wrong.
-/

namespace Imageboard

namespace Contents

variable {c d : Contents} {id amount : Int} {g : Tagging}

/-- The contents with the post count of a tag shifted by a number. -/
def shiftCount (id amount : Int) (c : Contents) : Contents :=
  c.mapTags (·.id = id) fun t => { t with postCount := t.postCount + amount }

/-- The post counts are right but for that of one tag, which is there and which a shift by a number mends. -/
structure Owing (id amount : Int) (c : Contents) : Prop where
  refers : c.refersToTag id
  mended : CountedBut [] (c.shiftCount id amount)

/-- As long as a shift is owing the counts are not right. -/
theorem Owing.not_counted (h : c.Owing id amount) (hamount : amount = 1 ∨ amount = -1) :
    ¬ c.Counted := by
  intro hcounted
  obtain ⟨t, ht, hid⟩ := refersToTag_iff.1 h.refers
  have hshifted : { t with postCount := t.postCount + amount } ∈ (c.shiftCount id amount).tags :=
    List.mem_map.2 ⟨t, ht, by simp [hid]⟩
  have hmended : t.postCount + amount = c.taggingCount t.id :=
    h.mended.counts _ hshifted List.not_mem_nil
  have hright := hcounted t ht
  omega

/-- With a new tagging the count of its tag has to go up by one. -/
theorem CountedBut.owing_addTagging (h : CountedBut [] c) (hd : c.addTagging g = .ok (true, d)) :
    d.Owing g.tagId 1 := by
  refine ⟨?_, h.addTagging_shift hd⟩
  obtain ⟨hfalse, -⟩ | ⟨-, -, -, hrefers, rfl⟩ := addTagging_eq_ok hd
  · contradiction
  · exact hrefers

/-- With a tagging less the count of its tag has to go down by one. -/
theorem CountedBut.owing_removeTagging (h : CountedBut [] c) (hg : g ∈ c.taggings) :
    (c.removeTagging g).2.Owing g.tagId (-1) :=
  ⟨h.refers g hg, h.removeTagging_shift hg⟩

end Contents

namespace Store

open Work Contents

variable {others : Others} {s t : Store} {change : String → Work Bool}
  {each : List String → Work Nat} {names : List String} {ids : List Int}

/-! ## One name after the other -/

/-- Work that changes taggings name by name is cut short: others take hold of the store when the tagging of
a name has been changed and not been counted yet. -/
inductive CutShort (others : Others) (change : String → Work Bool) (each : List String → Work Nat) :
    List String → Store → Prop where
  | here {name : String} {rest : List String} {s t : Store}
      (hchange : (change name).runOn s others = (.ok true, t)) (hrefused : t.isRefused others = true) :
      CutShort others change each (name :: rest) s
  | later {name : String} {rest : List String} {s t : Store} {n : Nat}
      (hdone : (each [name]).runOn s others = (.ok n, t)) (hcut : CutShort others change each rest t) :
      CutShort others change each (name :: rest) s

/-- What work does that changes taggings name by name and counts each change before it goes on. -/
structure CountsEach (change : String → Work Bool) (each : List String → Work Nat) : Prop where
  changeKeeps : ∀ name, Keeps (fun _ => True) (change name)
  eachKeeps : ∀ names, Keeps (fun _ => True) (each names)
  nil : each [] = pure 0
  failed : ∀ {others s t name e}, CountedBut [] s.contents →
    (change name).runOn s others = (.error e, t) →
      CountedBut [] t.contents ∧ ∀ rest, (each (name :: rest)).runOn s others = (.error e, t)
  unchanged : ∀ {others s t name}, CountedBut [] s.contents →
    (change name).runOn s others = (.ok false, t) →
      CountedBut [] t.contents ∧ ∀ rest, (each (name :: rest)).runOn s others = (each rest).runOn t others
  changed : ∀ {others s t name}, CountedBut [] s.contents →
    (change name).runOn s others = (.ok true, t) →
      Writable [.tags] [] t ∧ ∃ id amount, (amount = 1 ∨ amount = -1) ∧ t.contents.Owing id amount ∧
        ∀ rest, (each (name :: rest)).runOn s others =
          (do shiftPostCount id amount; let more ← each rest; return more + 1 : Work Nat).runOn t others

/-- A post count is not shifted while changes are refused. -/
theorem runOn_shiftPostCount_of_refused (h : Writable [.tags] [] s) (hrefused : s.isRefused others = true)
    (id amount : Int) : (shiftPostCount id amount).runOn s others = (.error (.store .locked), s) := by
  rw [shiftPostCount, runOn_write_of_readable h.toReadable, runOn_change_of_refused hrefused]

/-- A post count is shifted while changes are allowed. -/
theorem runOn_shiftPostCount_of_allowed (h : Writable [.tags] [] s) (hallowed : s.isRefused others = false)
    (id amount : Int) :
    (shiftPostCount id amount).runOn s others =
      (.ok (), { s with contents := s.contents.shiftCount id amount }) := by
  rw [shiftPostCount, runOn_write_of_readable h.toReadable, runOn_change_of_allowed hallowed]
  rfl

namespace CountsEach

/-- Wherever work ends that counts each of its changes, the counts are right or it was cut short. -/
theorem counted_or_cutShort (h : CountsEach change each) (hs : CountedBut [] s.contents)
    (names : List String) :
    CountedBut [] ((each names).runOn s others).2.contents ∨ CutShort others change each names s := by
  induction names generalizing s with
  | nil =>
    rw [h.nil]
    exact Or.inl hs
  | cons name rest ih =>
    rcases hchange : (change name).runOn s others with ⟨e | changed, t⟩
    · obtain ⟨ht, hrun⟩ := h.failed hs hchange
      rw [hrun]
      exact Or.inl ht
    cases changed with
    | false =>
      obtain ⟨ht, hrun⟩ := h.unchanged hs hchange
      have hdone : (each [name]).runOn s others = (.ok 0, t) := by rw [hrun, h.nil, runOn_pure]
      rw [hrun]
      exact (ih ht).imp_right (.later hdone)
    | true =>
      obtain ⟨hwritable, id, amount, -, howing, hrun⟩ := h.changed hs hchange
      cases hrefused : t.isRefused others with
      | true => exact Or.inr (.here hchange hrefused)
      | false =>
        have hshift := runOn_shiftPostCount_of_allowed hwritable hrefused id amount
        have hdone : (each [name]).runOn s others =
            (.ok 1, { t with contents := t.contents.shiftCount id amount }) := by
          rw [hrun, runOn_bind_of_ok hshift, h.nil]
          rfl
        rw [hrun, runOn_bind_of_ok hshift, snd_runOn_bind_pure]
        exact (ih howing.mended).imp_right (.later hdone)

/-- Work that is cut short is refused the count of a change that it has made. -/
theorem runOn_of_cutShort (h : CountsEach change each) (hs : CountedBut [] s.contents)
    (hcut : CutShort others change each names s) :
    ∃ t id amount, (each names).runOn s others = (.error (.store .locked), t) ∧
      (amount = 1 ∨ amount = -1) ∧ t.contents.Owing id amount := by
  induction hcut with
  | here hchange hrefused =>
    obtain ⟨hwritable, id, amount, hamount, howing, hrun⟩ := h.changed hs hchange
    have hshift := runOn_shiftPostCount_of_refused hwritable hrefused id amount
    exact ⟨_, id, amount, (hrun _).trans (runOn_bind_of_error hshift), hamount, howing⟩
  | @later name rest s t n hdone _ ih =>
    rcases hchange : (change name).runOn s others with ⟨e | changed, u⟩
    · rw [(h.failed hs hchange).2] at hdone
      cases hdone
    cases changed with
    | false =>
      obtain ⟨hu, hrun⟩ := h.unchanged hs hchange
      rw [hrun, h.nil] at hdone
      obtain ⟨-, rfl⟩ := runOn_pure_eq_ok.1 hdone
      rw [hrun]
      exact ih hu
    | true =>
      obtain ⟨hwritable, id, amount, -, howing, hrun⟩ := h.changed hs hchange
      obtain ⟨⟨⟩, v, hshift, hrest⟩ := runOn_bind_eq_ok.1 ((hrun _).symm.trans hdone)
      have hallowed : u.isRefused others = false := by
        refine Bool.eq_false_iff.2 fun hrefused => ?_
        rw [runOn_shiftPostCount_of_refused hwritable hrefused] at hshift
        cases hshift
      rw [runOn_shiftPostCount_of_allowed hwritable hallowed] at hshift
      obtain rfl := (Prod.mk.inj hshift).2
      rw [h.nil] at hrest
      obtain rfl := (Prod.mk.inj hrest).2
      obtain ⟨v, i, k, hfails, hk, howing'⟩ := ih howing.mended
      refine ⟨v, i, k, ?_, hk, howing'⟩
      rw [hrun, runOn_bind_of_ok (runOn_shiftPostCount_of_allowed hwritable hallowed id amount)]
      exact runOn_bind_of_error hfails

/-- Work that counts each of its changes keeps the counts right if it succeeds. -/
theorem leads (h : CountsEach change each) (names : List String) :
    Leads (CountedBut []) (each names) fun _ => CountedBut [] := by
  intro s n t others hs hrun
  rcases h.counted_or_cutShort hs names with hcounted | hcut
  · rwa [hrun] at hcounted
  · obtain ⟨u, -, -, hfails, -⟩ := h.runOn_of_cutShort hs hcut
    rw [hrun] at hfails
    cases hfails

/-- Without others no work is cut short. -/
theorem not_cutShort_absent (h : CountsEach change each) (hs : CountedBut [] s.contents) :
    ¬ CutShort .absent change each names s := by
  intro hcut
  generalize habsent : Others.absent = others at hcut
  induction hcut with
  | here hchange hrefused =>
    subst habsent
    have hfree := (h.changed hs hchange).1.free
    rw [isRefused_absent, hfree] at hrefused
    cases hrefused
  | @later name rest s t n hdone _ ih => exact ih (h.leads [name] s n t hs hdone)

/-- Work is cut short only outside of transactions and blocks, because others are kept out within them. -/
theorem closed_of_cutShort (h : CountsEach change each) (hs : s.Everywhere (CountedBut []))
    (hcut : CutShort others change each names s) : s.transaction = none ∧ s.savepoints = [] := by
  induction hcut with
  | @here name rest s t hchange hrefused =>
    obtain ⟨htransaction, hsavepoints⟩ := open_of_setting ((h.changeKeeps name).setting_of_runOn hchange)
    obtain ⟨hwritable, id, amount, hamount, howing, -⟩ := h.changed hs.contents hchange
    have hquiet : t.isUnderWay = false := by
      rw [isRefused, hwritable.free] at hrefused
      simp_all
    obtain ⟨hclosed, hsame⟩ : t.transaction = none ∧ t.contents = t.committed := by
      simpa [isUnderWay] using hquiet
    refine ⟨htransaction ▸ hclosed, ?_⟩
    rw [← hsavepoints, ← List.getLast?_eq_none_iff]
    refine Option.eq_none_iff_forall_ne_some.2 fun p hp => ?_
    -- What others see is right and the contents are not, so they are not the same.
    have hmem : p ∈ s.savepoints := hsavepoints ▸ List.mem_of_getLast? hp
    rw [committed, hclosed, hp] at hsame
    exact howing.not_counted hamount (hsame ▸ (countedBut_nil_iff.1 (hs.savepoints p hmem)).2)
  | @later name rest s t n hdone _ ih =>
    have hsetting := (h.eachKeeps [name]).setting_of_runOn hdone
    obtain ⟨htransaction, hsavepoints⟩ := open_of_setting hsetting
    rw [← htransaction, ← hsavepoints]
    exact ih (hs.of_setting hsetting (h.leads [name] s n t hs.contents hdone))

end CountsEach

/-! ## Tags of a single post -/

/-- Puts the tag with a name on a post, without counting it. -/
def tagPost (postId : Int) (name : String) : Work Bool := do
  let tag ← findOrCreateTag name none
  addTagging postId tag.id

/-- Takes the tag with a name off a post, if there is such a tag, without counting that. -/
def untagPost (postId : Int) (name : String) : Work Bool := do
  match ← getTag (TagName.normalize name) with
  | none => return false
  | some tag => removeTagging postId tag.id

/-- Making a tag keeps the counts as right as they are. -/
theorem keeps_findOrCreateTag_counted (name : String) (category : Option Int) :
    Keeps (CountedBut ids) (findOrCreateTag name category) :=
  keeps_findOrCreateTag (fun _ _ _ _ _ _ _ hc hd => hc.addTag hd) name category

/-- Stamping posts keeps the counts as right as they are. -/
theorem keeps_touchPosts_counted (postIds : List Int) :
    Keeps (CountedBut ids) (touchPosts postIds) :=
  keeps_touchPosts (fun _ _ _ hc => hc.congr rfl rfl) postIds

/-- The tags can be changed after a change of taggings, which needs their table. -/
theorem writable_tags_of_taggings {vs : List Value} {d : Contents}
    (h : Writable (.taggings :: Table.taggings.parents) vs s) (hd : d.missing = s.contents.missing) :
    Writable [.tags] [] { s with contents := d } where
  tables t ht := by
    obtain rfl := List.mem_singleton.1 ht
    have htags := h.tables .tags (by simp [Table.parents])
    simpa only [Contents.has, hd] using htags
  values := rfl
  free := h.free

/-- Putting tags on a post one after the other counts each of them. -/
theorem countsEach_addEach (postId : Int) : CountsEach (tagPost postId) (addEach postId) where
  changeKeeps name := (keeps_findOrCreateTag_of_names ignoresTagging_trivially.seesTagNames name
    none).bind fun tag => keeps_addTagging_of_names ignoresTagging_trivially.seesTagNames _ _
  eachKeeps := keeps_addEach_of_names ignoresTagging_trivially.seesTagNames postId
  nil := rfl
  failed {others s t name e} hs hrun := by
    rcases runOn_bind_eq_error.1 hrun with hfind | ⟨tag, u, hfind, hadd⟩
    · exact ⟨(keeps_findOrCreateTag_counted name none).contents_of_runOn hs hfind,
        fun rest => runOn_bind_of_error hfind⟩
    · obtain rfl := runOn_writeReferring_eq_error hadd
      have ht := (keeps_findOrCreateTag_counted name none).contents_of_runOn hs hfind
      exact ⟨ht, fun rest => (runOn_bind_of_ok hfind).trans (runOn_bind_of_error hadd)⟩
  unchanged {others s t name} hs hrun := by
    obtain ⟨tag, u, hfind, hadd⟩ := runOn_bind_eq_ok.1 hrun
    have hu := (keeps_findOrCreateTag_counted name none).contents_of_runOn hs hfind
    refine ⟨?_, fun rest => ?_⟩
    · obtain ⟨-, d, hd, rfl⟩ := runOn_writeReferring_eq_ok hadd
      obtain ⟨-, -, rfl⟩ | ⟨htrue, -⟩ := addTagging_eq_ok hd
      · exact hu
      · cases htrue
    · refine ((runOn_bind_of_ok hfind).trans (runOn_bind_of_ok hadd)).trans ?_
      exact runOn_bind_pure_id _ t
  changed {others s t name} hs hrun := by
    obtain ⟨tag, u, hfind, hadd⟩ := runOn_bind_eq_ok.1 hrun
    have hu := (keeps_findOrCreateTag_counted name none).contents_of_runOn hs hfind
    obtain ⟨hwritable, d, hd, rfl⟩ := runOn_writeReferring_eq_ok hadd
    refine ⟨writable_tags_of_taggings hwritable ?_, tag.id, 1, Or.inl rfl, hu.owing_addTagging hd, ?_⟩
    · obtain ⟨-, -, rfl⟩ | ⟨-, -, -, -, rfl⟩ := addTagging_eq_ok hd <;> rfl
    · exact fun rest => (runOn_bind_of_ok hfind).trans (runOn_bind_of_ok hadd)

/-- Taking tags off a post one after the other counts each of them. -/
theorem countsEach_removeEach (postId : Int) : CountsEach (untagPost postId) (removeEach postId) where
  changeKeeps name := by
    refine (keeps_read ..).bind fun found => ?_
    cases found with
    | none => exact keeps_pure _
    | some tag => exact keeps_removeTagging_of_names ignoresTagging_trivially.seesTagNames _ _
  eachKeeps := keeps_removeEach_of_names ignoresTagging_trivially.seesTagNames postId
  nil := rfl
  failed {others s t name e} hs hrun := by
    rcases runOn_bind_eq_error.1 hrun with hfind | ⟨found, u, hfind, hremove⟩
    · obtain rfl := (reads_read _ _ _).eq_of_runOn hfind
      exact ⟨hs, fun rest => runOn_bind_of_error hfind⟩
    · obtain rfl := (reads_read _ _ _).eq_of_runOn hfind
      cases found with
      | none => cases hremove
      | some tag =>
        obtain rfl := runOn_writeReferring_eq_error hremove
        exact ⟨hs, fun rest => (runOn_bind_of_ok hfind).trans (runOn_bind_of_error hremove)⟩
  unchanged {others s t name} hs hrun := by
    obtain ⟨found, u, hfind, hremove⟩ := runOn_bind_eq_ok.1 hrun
    obtain rfl := (reads_read _ _ _).eq_of_runOn hfind
    cases found with
    | none =>
      obtain ⟨-, rfl⟩ := runOn_pure_eq_ok.1 hremove
      exact ⟨hs, fun rest => runOn_bind_of_ok hfind⟩
    | some tag =>
      refine ⟨?_, fun rest => ?_⟩
      · obtain ⟨-, d, hd, rfl⟩ := runOn_writeReferring_eq_ok hremove
        obtain ⟨hthere, rfl⟩ := Prod.mk.inj (Except.ok.inj hd)
        refine hs.congr rfl (List.filter_eq_self.2 fun g hg => ?_)
        have hnot : (⟨postId, tag.id⟩ : Tagging) ∉ u.contents.taggings := by simpa using hthere
        exact decide_eq_true fun heq => hnot (heq ▸ hg)
      · refine ((runOn_bind_of_ok hfind).trans (runOn_bind_of_ok hremove)).trans ?_
        exact runOn_bind_pure_id _ t
  changed {others s t name} hs hrun := by
    obtain ⟨found, u, hfind, hremove⟩ := runOn_bind_eq_ok.1 hrun
    obtain rfl := (reads_read _ _ _).eq_of_runOn hfind
    cases found with
    | none => cases hremove
    | some tag =>
      obtain ⟨hwritable, d, hd, rfl⟩ := runOn_writeReferring_eq_ok hremove
      obtain ⟨hthere, rfl⟩ := Prod.mk.inj (Except.ok.inj hd)
      have howing := hs.owing_removeTagging (by simpa using hthere)
      exact ⟨writable_tags_of_taggings hwritable rfl, tag.id, -1, Or.inr rfl, howing,
        fun rest => (runOn_bind_of_ok hfind).trans (runOn_bind_of_ok hremove)⟩

/-- A call that stamps a post after work which counts each of its changes leaves right counts exactly if that
work was not cut short. -/
theorem CountsEach.counted_stamped_iff (h : CountsEach change each) (hs : CountedBut [] s.contents)
    (postId : Int) (names : List String) :
    CountedBut [] ((each names >>= touchIfChanged postId).runOn s others).2.contents ↔
      ¬ CutShort others change each names s := by
  constructor
  · intro hcounted hcut
    obtain ⟨t, id, amount, hfails, hamount, howing⟩ := h.runOn_of_cutShort hs hcut
    rw [runOn_bind_of_error hfails] at hcounted
    exact howing.not_counted hamount (countedBut_nil_iff.1 hcounted).2
  · intro hcut
    have hcounted := (h.counted_or_cutShort hs names).resolve_right hcut
    rw [runOn_bind]
    rcases hrun : (each names).runOn s others with ⟨e | n, t⟩
    · rwa [hrun] at hcounted
    · rw [hrun] at hcounted
      exact (keeps_touchIfChanged (fun _ _ _ hc => hc.congr rfl rfl) postId n).contents t hcounted

/-- A call that is cut short, as it can be only outside of transactions and blocks, fails because the store is
locked. The post count of one tag is then wrong by the one tagging that was changed and not counted. -/
theorem CountsEach.runOn_stamped_of_cutShort (h : CountsEach change each)
    (hs : s.Everywhere (CountedBut [])) (hcut : CutShort others change each names s) (postId : Int) :
    s.transaction = none ∧ s.savepoints = [] ∧ ∃ t id amount,
      (each names >>= touchIfChanged postId).runOn s others = (.error (.store .locked), t) ∧
      (amount = 1 ∨ amount = -1) ∧ t.contents.Owing id amount := by
  obtain ⟨hclosed, hnone⟩ := h.closed_of_cutShort hs hcut
  obtain ⟨t, id, amount, hfails, hamount, howing⟩ := h.runOn_of_cutShort hs.contents hcut
  exact ⟨hclosed, hnone, t, id, amount, runOn_bind_of_error hfails, hamount, howing⟩

/-- Putting tags on a post keeps the counts right if it succeeds. -/
theorem leads_addPostTags_counted (postId : Int) (names : List String) :
    Leads (CountedBut []) (addPostTags postId names) fun _ => CountedBut [] :=
  ((countsEach_addEach postId).leads names).bind fun n =>
    (keeps_touchIfChanged (fun _ _ _ hc => hc.congr rfl rfl) postId n).leads

/-- Taking tags off a post keeps the counts right if it succeeds. -/
theorem leads_removePostTags_counted (postId : Int) (names : List String) :
    Leads (CountedBut []) (removePostTags postId names) fun _ => CountedBut [] :=
  ((countsEach_removeEach postId).leads names).bind fun n =>
    (keeps_touchIfChanged (fun _ _ _ hc => hc.congr rfl rfl) postId n).leads

end Store

end Imageboard
