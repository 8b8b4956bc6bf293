import Imageboard.Bulk.MassUpdate
import Imageboard.Proofs.Relationship.Keeping
import Imageboard.Proofs.Store.Transactions

/-!
# Searchers and the store

Making a plan and finding out what names stand for changes what a searcher remembers, and nothing in
the store. Only the work that a searcher does on the store changes it.
-/

namespace Imageboard

namespace SearchWork

variable {α β : Type} {I : Store → Prop}

/-- The result or the failure of some work of a searcher, with the searcher that it leaves. -/
def runOn (w : SearchWork α) (s : Searcher) : Except Failure α × Searcher :=
  w.run.run s

/-- The rest of a sequence runs on the searcher that the first step leaves, unless that fails. -/
theorem runOn_bind (x : SearchWork α) (f : α → SearchWork β) (s : Searcher) :
    (x >>= f).runOn s =
      match x.runOn s with
      | (.ok a, t) => (f a).runOn t
      | (.error e, t) => (.error e, t) := by
  change (ExceptT.bindCont (fun a => f a) (x.runOn s).1).run (x.runOn s).2 = _
  rcases x.runOn s with ⟨_ | _, t⟩ <;> rfl

/-- After a first step that succeeds, a sequence does what its rest does. -/
theorem runOn_bind_of_ok {x : SearchWork α} {f : α → SearchWork β} {s t : Searcher} {a : α}
    (hx : x.runOn s = (.ok a, t)) : (x >>= f).runOn s = (f a).runOn t := by
  rw [runOn_bind, hx]

/-- Work whose result is known leaves some searcher. -/
theorem exists_runOn_eq_ok {w : SearchWork α} {s : Searcher} {a : α} (h : (w.runOn s).1 = .ok a) :
    ∃ t, w.runOn s = (.ok a, t) :=
  ⟨(w.runOn s).2, Prod.ext h rfl⟩

/-- Looking at the searcher leaves it alone. -/
theorem runOn_get (s : Searcher) : (get : SearchWork Searcher).runOn s = (.ok s, s) := rfl

/-- A plain computation leaves the searcher alone. -/
theorem runOn_lift (r : Except Failure α) (s : Searcher) : (lift r).runOn s = (r, s) := rfl

/-- Work on the store changes the store of the searcher alone. -/
theorem runOn_ofWork (w : Work α) (s : Searcher) :
    (ofWork w).runOn s = ((w.runOn s.store).1, { s with store := (w.runOn s.store).2 }) := rfl

/-- A searcher reads tables of its store as the store does. -/
theorem runOn_ofWork_read_of_readable {ts : List Table} {vs : List Value} {s : Searcher}
    (h : Work.Readable ts vs s.store) (f : Contents → α) :
    (ofWork (Work.read ts vs f)).runOn s = (.ok (f s.store.contents), s) := by
  rw [runOn_ofWork, Work.runOn_read_of_readable h]

/-- A searcher that cannot read tables is left as it is. -/
theorem runOn_ofWork_read_of_not_readable {ts : List Table} {vs : List Value} {s : Searcher}
    (h : ¬ Work.Readable ts vs s.store) (f : Contents → α) :
    ∃ e, (ofWork (Work.read ts vs f)).runOn s = (.error e, s) := by
  obtain ⟨e, hread⟩ : ∃ e, (Work.read ts vs f).runOn s.store = (.error e, s.store) :=
    Work.runOn_read_of_not_readable h f
  exact ⟨e, by rw [runOn_ofWork, hread]⟩

/-- Work of a searcher that leaves the store as it is, whether it succeeds or fails. -/
def Reads (w : SearchWork α) : Prop :=
  ∀ s, (w.runOn s).2.store = s.store

/-- A property of stores that some work of a searcher keeps, whether it succeeds or fails. -/
def Preserves (I : Store → Prop) (w : SearchWork α) : Prop :=
  ∀ s, I s.store → I (w.runOn s).2.store

/-- A sequence of steps that leave the store as it is does so too. -/
theorem Reads.bind {x : SearchWork α} {f : α → SearchWork β} (hx : Reads x)
    (hf : ∀ a, Reads (f a)) : Reads (x >>= f) := by
  intro s
  have hfirst := hx s
  rw [runOn_bind]
  rcases hrun : x.runOn s with ⟨_ | a, m⟩
  · rwa [hrun] at hfirst
  · rw [hrun] at hfirst
    exact (hf a m).trans hfirst

/-- A run of work that leaves the store as it is ends with the store that it began with. -/
theorem Reads.store_eq {w : SearchWork α} {s t : Searcher} {r : Except Failure α} (h : Reads w)
    (hrun : w.runOn s = (r, t)) : t.store = s.store := by
  have hread := h s
  rwa [hrun] at hread

/-- A plain result leaves the store as it is. -/
theorem reads_pure (a : α) : Reads (pure a) := fun _ => rfl

/-- Looking at the searcher leaves the store as it is. -/
theorem reads_get : Reads get := fun _ => rfl

/-- A plain computation leaves the store as it is. -/
theorem reads_lift (r : Except Failure α) : Reads (lift r) := fun _ => rfl

/-- Remembering something leaves the store as it is. -/
theorem reads_modify {f : Searcher → Searcher} (hf : ∀ s, (f s).store = s.store) :
    Reads (modify f) := hf

/-- Work that reads the store leaves it as it is. -/
theorem reads_ofWork {w : Work α} (hw : Work.Reads w) : Reads (ofWork w) := by
  intro s
  exact hw s.store

/-- Work that leaves the store as it is keeps everything. -/
theorem Reads.preserves {w : SearchWork α} (h : Reads w) : Preserves I w := by
  intro s hs
  rwa [h]

/-- A sequence keeps what its steps keep. -/
theorem Preserves.bind {x : SearchWork α} {f : α → SearchWork β} (hx : Preserves I x)
    (hf : ∀ a, Preserves I (f a)) : Preserves I (x >>= f) := by
  intro s hs
  have hfirst := hx s hs
  rw [runOn_bind]
  rcases hrun : x.runOn s with ⟨_ | a, m⟩
  · rwa [hrun] at hfirst
  · rw [hrun] at hfirst
    exact hf a m hfirst

/-- Work on the store keeps what it keeps. -/
theorem preserves_ofWork {w : Work α} (hw : ∀ s, I s → I (w.runOn s).2) : Preserves I (ofWork w) :=
  fun s hs => hw s.store hs

end SearchWork

namespace Searcher

open SearchWork

/-- Finding out what a name stands for leaves the store as it is. -/
theorem reads_resolve (name : String) : Reads (resolve name) := by
  refine (reads_modify (by intro _; rfl)).bind fun _ => reads_get.bind fun s => ?_
  cases s.aliases.find? name with
  | some target => exact reads_pure _
  | none =>
    exact (reads_ofWork (Work.reads_read _ _ _)).bind fun _ =>
      (reads_modify (by intro _; rfl)).bind fun _ => reads_pure _

/-- Finding out what some names stand for leaves the store as it is. -/
theorem reads_resolveEach (names : List String) : Reads (resolveEach names) := by
  induction names with
  | nil => exact reads_pure _
  | cons name rest ih => exact (reads_resolve name).bind fun _ => ih.bind fun _ => reads_pure _

/-- Making a plan leaves the store as it is. -/
theorem reads_compile (config : Config) (viewer : Viewer) (query : String) :
    Reads (compile config viewer query) :=
  reads_get.bind fun _ => (reads_lift _).bind fun _ => (reads_resolveEach _).bind fun _ => reads_lift _

end Searcher

/-- Selecting posts leaves the store as it is. -/
theorem Search.reads_selectPostIds (plan : Query.Plan) (limit : Option Int) (offset : Int) :
    Work.Reads (selectPostIds plan limit offset) := by
  refine Work.Reads.bind (fun _ => rfl) fun statement => ?_
  exact Work.Reads.adapt (Work.reads_read _ _ _)

namespace Bulk

open SearchWork

/-- What a job does to tags is found out without changing the store. -/
theorem reads_resolveTags (ts : List Query.Term) : SearchWork.Reads (resolveTags ts) := by
  induction ts with
  | nil => exact reads_pure _
  | cons t rest ih =>
    rw [resolveTags]
    split
    · exact (Searcher.reads_resolve t.name).bind fun _ => ih.bind fun _ => reads_pure _
    · exact ih

/-- What a job does to tags is found out without changing the store. -/
theorem reads_tagChanges (config : Config) (job : Job) : SearchWork.Reads (tagChanges config job) :=
  (reads_lift _).bind fun _ => (reads_resolveTags _).bind fun _ => (reads_lift _).bind fun _ =>
    (reads_resolveTags _).bind fun _ =>
      (reads_ofWork Relationship.reads_implicationGraph).bind fun _ => reads_pure _

variable {P : Contents → Prop}

/-- Changing the tags of posts keeps what putting tags on them and taking them off keeps. -/
theorem keeps_retag (hsingle : Store.SinglePostsKeep P) (changes : TagChanges) (postIds : List Int) :
    Work.Keeps P (retag changes postIds) := by
  induction postIds with
  | nil => exact Work.keeps_pure _
  | cons postId rest ih =>
    exact (hsingle.removePostTags _ _).bind fun _ => (hsingle.addPostTags _ _).bind fun _ => ih

/-- Changing the tags of posts keeps, if it succeeds, what work on tags keeps. -/
theorem leads_retag (htags : Store.TaggingKeeps P) (changes : TagChanges) (postIds : List Int) :
    Work.Leads P (retag changes postIds) fun _ => P := by
  induction postIds with
  | nil => exact (Work.keeps_pure _).leads
  | cons postId rest ih =>
    exact (htags.removePostTags _ _).bind fun _ => (htags.addPostTags _ _).bind fun _ => ih

/-- What a job does in its transaction. -/
def retagSelected (plan : Query.Plan) (changes : TagChanges) : Work Int := do
  let postIds ← Search.selectPostIds plan none 0
  retag changes postIds
  return (postIds.length : Int)

/-- Changing the tags of the posts that are selected changes nothing around the contents. -/
theorem setting_retagSelected (plan : Query.Plan) (changes : TagChanges) {others : Others} (s : Store) :
    ((retagSelected plan changes).runOn s others).2.setting = s.setting := by
  have hkeeps : Work.Keeps (fun _ => True) (retagSelected plan changes) :=
    (Search.reads_selectPostIds plan none 0).keeps.bind fun postIds =>
      (keeps_retag Store.singlePostsKeep_trivially changes postIds).bind fun _ => Work.keeps_pure _
  exact hkeeps.setting s

/-- Changing the tags of the posts that are selected keeps, if it succeeds, what work on tags keeps. -/
theorem leads_retagSelected (htags : Store.TaggingKeeps P) (plan : Query.Plan)
    (changes : TagChanges) : Work.Leads P (retagSelected plan changes) fun _ => P :=
  (Search.reads_selectPostIds plan none 0).keeps.leads.bind fun postIds =>
    (leads_retag htags changes postIds).bind fun _ => (Work.keeps_pure _).leads

/-- A job keeps what work on tags keeps, of all contents that can come back. -/
theorem preserves_perform (htags : Store.TaggingKeeps P) (config : Config) (job : Job) :
    SearchWork.Preserves (Store.Everywhere P) (perform config job) := by
  refine (Searcher.reads_compile _ _ _).preserves.bind fun plan =>
    (reads_tagChanges config job).preserves.bind fun changes => preserves_ofWork fun s => ?_
  exact Work.preserves_inTransaction_of_leads (fun _ => setting_retagSelected plan changes)
    (fun _ => leads_retagSelected htags plan changes) s

end Bulk

end Imageboard
