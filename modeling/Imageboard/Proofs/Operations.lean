import Imageboard.Fixture.Import
import Imageboard.Proofs.Bulk.Processing
import Imageboard.Proofs.Search.Reading
import Imageboard.Proofs.Tagging.Counting

/-!
# Operations in any order

Operations on posts and tags, on relationships and on transactions are done one after the other, and
each of them may fail somewhere on its way; what it did until then stays done unless a block or a
transaction takes it back. Others take hold of the store and let it go between two operations, and also in
the middle of one, where it does not keep them out. The main statement is that the post counts are right
after each operation, as long as no change of the tags of a single post is cut short.
-/

namespace Imageboard

open Store Work

variable {P : Contents → Prop}

namespace Fixture

/-- Giving a tag a category keeps what work on tags keeps. -/
theorem keeps_categorize (htags : TaggingKeeps P) (name : String) (code : Int) :
    Keeps P (categorize name code) :=
  (htags.findOrCreateTag _ _).bind fun _ => Keeps.guarded (htags.setTagCategory _ _)

/-- Preparing the tags of a row keeps what work on tags keeps. -/
theorem keeps_prepareTags (htags : TaggingKeeps P) (categories : Categories)
    (tokens : List String) : Keeps P (prepareTags categories tokens) := by
  induction tokens with
  | nil => exact keeps_pure _
  | cons token rest ih =>
    rw [prepareTags]
    rcases splitCategory categories token with ⟨name, code⟩
    dsimp only
    split
    · exact ih
    · cases code with
      | none => exact ih.bind fun _ => keeps_pure _
      | some code =>
        exact (keeps_categorize htags name code).bind fun _ => ih.bind fun _ => keeps_pure _

/-- Registering the user of a row keeps what work on users keeps. -/
theorem keeps_userNamed (htags : TaggingKeeps P) (name : Option String) :
    Keeps P (userNamed name) := by
  cases name with
  | none => exact keeps_pure _
  | some name =>
    exact Keeps.ite (keeps_pure _) ((htags.findOrCreateUser name).bind fun _ => keeps_pure _)

/-- Making the posts of rows keeps what work on posts and tags keeps. -/
theorem keeps_importEach (htags : TaggingKeeps P) (rows : List Row) : Keeps P (importEach rows) := by
  induction rows with
  | nil => exact keeps_pure _
  | cons r rest ih =>
    have hrow : Keeps P (importRow r) :=
      (keeps_userNamed htags _).bind fun _ => (keeps_userNamed htags _).bind fun _ =>
        keeps_get.bind fun s => (keeps_prepareTags htags s.categories _).bind fun _ =>
          (htags.createPost _ _).bind fun _ => keeps_pure _
    exact Keeps.ite (hrow.bind fun _ => ih.bind fun _ => keeps_pure _) ih

end Fixture

/-- Something that can be done to a store. -/
inductive Operation where
  | createPost (draft : PostDraft) (names : List String)
  | addPostTags (postId : Int) (names : List String)
  | removePostTags (postId : Int) (names : List String)
  | replaceTagOnPosts (oldName newName : String)
  | addTagsToPostsWith (antecedent : String) (names : List String)
  | findOrCreateTag (name : String) (category : Option Int)
  | approveAlias (r : Relationship) (approverId : Option Int) (withPages : Bool)
  | approveImplication (r : Relationship) (approverId : Option Int)
  | processScript (u : Bulk.Update) (viewer : Viewer)
  /-- A job, done by a searcher who remembers something. -/
  | performJob (config : Config) (job : Job) (aliases : AliasCache) (counts : CountCache)
  | importRows (rows : List Fixture.Row)
  | regeneratePostCounts
  | openBlock
  | closeBlock (number : Nat)
  | abortBlock (number : Nat)
  | begin
  | commit (number : Nat)
  | rollback (number : Nat)
  /-- Between two calls time passes, others take hold of the store or let it go, and the disk fails or
  works again. -/
  | meanwhile (clock : Moment) (heldElsewhere commitsFail : Bool)

namespace Operation

/-- The store after an operation that was done amid others, whether it succeeded or failed. A job reads the
store until it begins its transaction, so others can only keep it from beginning, as they can before it. -/
def after (s : Store) (others : Others) : Operation → Store
  | createPost draft names => ((Store.createPost draft names).runOn s others).2
  | addPostTags postId names => ((Store.addPostTags postId names).runOn s others).2
  | removePostTags postId names => ((Store.removePostTags postId names).runOn s others).2
  | replaceTagOnPosts oldName newName => ((Store.replaceTagOnPosts oldName newName).runOn s others).2
  | addTagsToPostsWith antecedent names => ((Store.addTagsToPostsWith antecedent names).runOn s others).2
  | findOrCreateTag name category => ((Store.findOrCreateTag name category).runOn s others).2
  | approveAlias r approverId withPages =>
    ((Relationship.approveAlias r approverId withPages).runOn s others).2
  | approveImplication r approverId => ((Relationship.approveImplication r approverId).runOn s others).2
  | processScript u viewer => ((u.process viewer).runOn s others).2
  | performJob config job aliases counts =>
    ((Bulk.perform config job).runOn ⟨s, aliases, counts⟩).2.store
  | importRows rows => ((Fixture.importRows rows).runOn s others).2
  | regeneratePostCounts => (Store.regeneratePostCounts.runOn s others).2
  | openBlock => s.setSavepoint
  | closeBlock number => (s.release number).toOption.getD s
  | abortBlock number => (s.undo number).toOption.getD s
  | begin => (Work.begin.runOn s others).2
  | commit number => ((Work.commit number).runOn s others).2
  | rollback number => ((Work.rollback number).runOn s others).2
  | meanwhile clock heldElsewhere commitsFail =>
    { s with clock := clock, heldElsewhere := heldElsewhere, commitsFail := commitsFail }

/-- Whether an operation changes the tags of a single post. A tagging is changed and counted by two statements
then, and they stand in no block. -/
def IsSinglePost : Operation → Prop
  | addPostTags _ _ | removePostTags _ _ => True
  | _ => False

/-- Others cut an operation short: they take hold of the store when it has changed a tagging of a single post
and has not counted that yet. -/
def CutShort (s : Store) (others : Others) : Operation → Prop
  | addPostTags postId names => Store.CutShort others (tagPost postId) (addEach postId) names s
  | removePostTags postId names => Store.CutShort others (untagPost postId) (removeEach postId) names s
  | _ => False

/-- A store that a change of it may give, or else the old one, keeps what both have. -/
theorem everywhere_getD {s : Store} {r : Except Failure Store} (hs : s.Everywhere P)
    (h : ∀ t, r = .ok t → t.Everywhere P) : (r.toOption.getD s).Everywhere P := by
  cases r with
  | error e => exact hs
  | ok t => exact h t rfl

/-- One operation keeps what work on tags and on relationships keeps, of all contents that can come
back, if no page matters, a recount of all tags keeps it too, and so does the operation itself when it
changes the tags of a single post. -/
theorem everywhere_after (htags : TaggingKeeps P) (hrel : ∀ kind, RelationshipKeeps kind P)
    (hpages : Contents.IgnoresPages P) (hrecount : ∀ c : Contents, P c → P c.recountAll) {s : Store}
    {others : Others} (hs : s.Everywhere P) (op : Operation)
    (hsingle : op.IsSinglePost → P (op.after s others).contents) : (op.after s others).Everywhere P := by
  cases op with
  | createPost draft names => exact (htags.createPost draft names).preserves s hs
  | addPostTags postId names =>
    exact hs.of_setting ((singlePostsKeep_trivially.addPostTags postId names).setting s) (hsingle trivial)
  | removePostTags postId names =>
    exact hs.of_setting ((singlePostsKeep_trivially.removePostTags postId names).setting s)
      (hsingle trivial)
  | replaceTagOnPosts oldName newName => exact (htags.replaceTagOnPosts _ _).preserves s hs
  | addTagsToPostsWith antecedent names => exact (htags.addTagsToPostsWith _ _).preserves s hs
  | findOrCreateTag name category => exact (htags.findOrCreateTag name category).preserves s hs
  | approveAlias r approverId withPages =>
    exact (Relationship.keeps_approveAlias htags (hrel _) (hrel _) hpages _ _ _).preserves s hs
  | approveImplication r approverId =>
    exact (Relationship.keeps_approveImplication htags (hrel _) _ _).preserves s hs
  | processScript u viewer =>
    exact Bulk.Update.preserves_process
      (fun _ c => Bulk.Update.preserves_applyCommand htags hrel hpages c) s hs
  | performJob config job aliases counts =>
    exact Bulk.preserves_perform htags config job ⟨s, aliases, counts⟩ hs
  | importRows rows =>
    exact preserves_inTransaction (fun _ => (Fixture.keeps_importEach htags rows).preserves) s hs
  | regeneratePostCounts =>
    refine Keeps.preserves (keeps_write fun c n d hc hd => ?_) s hs
    obtain ⟨-, rfl⟩ := Prod.mk.inj (Except.ok.inj hd)
    exact hrecount c hc
  | openBlock => exact hs.setSavepoint
  | closeBlock number => exact everywhere_getD hs fun t ht => hs.release ht
  | abortBlock number => exact everywhere_getD hs fun t ht => hs.undo ht
  | begin => exact preserves_begin s hs
  | commit number => exact preserves_commit number s hs
  | rollback number => exact preserves_rollback number s hs
  | meanwhile clock heldElsewhere commitsFail => exact ⟨hs.contents, hs.transaction, hs.savepoints⟩

/-- What changes of the tags of a single post keep wherever they end is kept by the operations that make
such changes. -/
theorem contents_after_of_singlePosts (hsingle : SinglePostsKeep P) {s : Store} {others : Others}
    (hs : P s.contents) {op : Operation} (hop : op.IsSinglePost) : P (op.after s others).contents := by
  cases op
  case addPostTags postId names => exact (hsingle.addPostTags postId names).contents s hs
  case removePostTags postId names => exact (hsingle.removePostTags postId names).contents s hs
  all_goals exact hop.elim

/-- Only an operation that changes the tags of a single post is cut short. -/
theorem isSinglePost_of_cutShort {s : Store} {others : Others} {op : Operation}
    (hcut : op.CutShort s others) : op.IsSinglePost := by
  cases op
  case addPostTags | removePostTags => trivial
  all_goals exact hcut.elim

/-- An operation that changes the tags of a single post does so name by name, counts each change, and then
stamps the post. -/
theorem countsEach_of_isSinglePost {op : Operation} (hop : op.IsSinglePost) :
    ∃ change each names postId, CountsEach change each ∧ ∀ s others,
      op.after s others = ((each names >>= touchIfChanged postId).runOn s others).2 ∧
      (op.CutShort s others ↔ Store.CutShort others change each names s) := by
  cases op
  case addPostTags postId names =>
    exact ⟨_, _, names, postId, countsEach_addEach postId, fun _ _ => ⟨rfl, .rfl⟩⟩
  case removePostTags postId names =>
    exact ⟨_, _, names, postId, countsEach_removeEach postId, fun _ _ => ⟨rfl, .rfl⟩⟩
  all_goals exact hop.elim

section Counts

variable {s : Store} {others : Others} (hs : s.Everywhere (Contents.CountedBut []))
include hs

/-- One operation keeps the post counts right, of all contents that can come back, if it leaves right ones
when it changes the tags of a single post. -/
theorem everywhere_counted_after (op : Operation)
    (hsingle : op.IsSinglePost → Contents.CountedBut [] (op.after s others).contents) :
    (op.after s others).Everywhere (Contents.CountedBut []) :=
  everywhere_after taggingKeeps_counted
    (fun kind => relationshipKeeps_of_ignores fun c _ hc => by cases kind <;> exact hc.congr rfl rfl)
    (fun c _ _ hc => hc.congr rfl rfl)
    (fun c hc => Contents.countedBut_nil_iff.2
      ⟨hc.toTaggingRules.mapTags (by intro _; rfl), c.counted_recountAll⟩) hs op hsingle

/-- An operation leaves right post counts exactly if it is not cut short. -/
theorem countedBut_after_iff (op : Operation) :
    Contents.CountedBut [] (op.after s others).contents ↔ ¬ op.CutShort s others := by
  by_cases hop : op.IsSinglePost
  · obtain ⟨change, each, names, postId, heach, hsame⟩ := countsEach_of_isSinglePost hop
    rw [(hsame s others).1, (hsame s others).2]
    exact heach.counted_stamped_iff hs.contents postId names
  · have hafter : (op.after s others).Everywhere (Contents.CountedBut []) :=
      everywhere_counted_after hs op fun h => absurd h hop
    exact iff_of_true hafter.contents (mt isSinglePost_of_cutShort hop)

/-- An operation that is not cut short keeps the post counts right, of all contents that can come back. -/
theorem everywhere_counted_after_of_uncut {op : Operation} (hcut : ¬ op.CutShort s others) :
    (op.after s others).Everywhere (Contents.CountedBut []) :=
  everywhere_counted_after hs op fun _ => (countedBut_after_iff hs op).2 hcut

/-- Only outside of transactions and blocks is an operation cut short. It leaves the post count of one tag
too small or too large by one, which a tagging that it has changed and not counted makes up for. -/
theorem owing_after_of_cutShort {op : Operation} (hcut : op.CutShort s others) :
    s.transaction = none ∧ s.savepoints = [] ∧
      ∃ id amount, (amount = 1 ∨ amount = -1) ∧ (op.after s others).contents.Owing id amount := by
  obtain ⟨change, each, names, postId, heach, hsame⟩ :=
    countsEach_of_isSinglePost (isSinglePost_of_cutShort hcut)
  obtain ⟨hclosed, hnone, t, id, amount, hrun, hamount, howing⟩ :=
    heach.runOn_stamped_of_cutShort hs ((hsame s others).2.1 hcut) postId
  refine ⟨hclosed, hnone, id, amount, hamount, ?_⟩
  rw [(hsame s others).1, hrun]
  exact howing

/-- No operation is cut short by others who stay away. -/
theorem not_cutShort_absent (op : Operation) : ¬ op.CutShort s .absent := by
  intro hcut
  obtain ⟨change, each, names, postId, heach, hsame⟩ :=
    countsEach_of_isSinglePost (isSinglePost_of_cutShort hcut)
  exact heach.not_cutShort_absent hs.contents ((hsame s .absent).2.1 hcut)

end Counts

end Operation

namespace Store

/-- The states that a store goes through under some operations, each of them done amid others, from the
first to the last. -/
def states (s : Store) : List (Operation × Others) → List Store
  | [] => [s]
  | (op, others) :: rest => s :: states (op.after s others) rest

/-- None of some operations is cut short. -/
def Uncut (s : Store) : List (Operation × Others) → Prop
  | [] => True
  | (op, others) :: rest => ¬ op.CutShort s others ∧ Uncut (op.after s others) rest

/-- Operations that are not cut short keep the post counts right. -/
theorem Everywhere.countedBut_of_mem_states {s t : Store} {steps : List (Operation × Others)}
    (hs : s.Everywhere (Contents.CountedBut [])) (hsteps : s.Uncut steps) (ht : t ∈ s.states steps) :
    t.Everywhere (Contents.CountedBut []) := by
  induction steps generalizing s with
  | nil =>
    obtain rfl := List.mem_singleton.1 ht
    exact hs
  | cons step rest ih =>
    obtain ⟨hcut, hrest⟩ := hsteps
    rcases List.mem_cons.1 ht with rfl | ht
    · exact hs
    · exact ih (Operation.everywhere_counted_after_of_uncut hs hcut) hrest ht

/-- Operations between which others come and go, but during which they stay away, are not cut short. -/
theorem Everywhere.uncut_of_absent {s : Store} {steps : List (Operation × Others)}
    (hs : s.Everywhere (Contents.CountedBut [])) (habsent : ∀ step ∈ steps, step.2 = .absent) :
    s.Uncut steps := by
  induction steps generalizing s with
  | nil => exact trivial
  | cons step rest ih =>
    obtain ⟨hfirst, hrest⟩ := List.forall_mem_cons.1 habsent
    have hcut : ¬ step.1.CutShort s step.2 := hfirst ▸ Operation.not_cutShort_absent hs step.1
    exact ⟨hcut, ih (Operation.everywhere_counted_after_of_uncut hs hcut) hrest⟩

/-- Post counts that are right, also in all contents that can come back, are right after each of any
operations, whatever fails and whenever others take hold of the store, as long as none of the operations is
cut short. Counting all tags anew makes the counts of every store right and returns how many were wrong,
unless a table is missing or the store is refused; then it fails and leaves the store as it is. -/
theorem counted_of_operations (s : Store) :
    ((s.Everywhere fun c => c.TaggingRules ∧ c.Counted) →
      ∀ steps, s.Uncut steps → ∀ t ∈ s.states steps, t.contents.Counted) ∧
    ∀ others, (Readable [.tags, .taggings] [] s ∧ s.isRefused others = false ∧
        s.contents.recountAll.Counted ∧
        regeneratePostCounts.runOn s others =
          (.ok ((s.contents.tags.countP s.contents.isMiscounted : Nat) : Int),
            { s with contents := s.contents.recountAll })) ∨
      (¬ (Readable [.tags, .taggings] [] s ∧ s.isRefused others = false) ∧
        ∃ e, regeneratePostCounts.runOn s others = (.error e, s)) := by
  constructor
  · intro hs steps hsteps t ht
    have hcounted : s.Everywhere (Contents.CountedBut []) :=
      hs.imp fun c hc => Contents.countedBut_nil_iff.2 hc
    exact (Contents.countedBut_nil_iff.1 (hcounted.countedBut_of_mem_states hsteps ht).contents).2
  · intro others
    by_cases h : Readable [.tags, .taggings] [] s ∧ s.isRefused others = false
    · exact Or.inl ⟨h.1, h.2, s.contents.counted_recountAll, runOn_regeneratePostCounts h.1 h.2⟩
    · exact Or.inr ⟨h, runOn_write_of_not_allowed h _⟩

/-- Contents in which two posts show a cat. -/
def twoCatsContents : Contents :=
  { Contents.empty with
    tags := [⟨1, "cat", 0, 2, .null, .null⟩]
    posts := [PostDraft.toPost {} 1 .null, PostDraft.toPost {} 2 .null]
    taggings := [⟨1, 1⟩, ⟨2, 1⟩] }

/-- The same contents, but with a wrong post count. -/
def miscountedContents : Contents :=
  { twoCatsContents with tags := [⟨1, "cat", 0, 5, .null, .null⟩] }

/-- Others who take hold of the store as soon as there is a tag with a name. -/
def othersWaitingFor (name : String) : Others :=
  fun s => (s.contents.findTag? name).isSome

/-- The post counts stay right on a store with two cats. First others take hold of it when a tag has been
made that is to be put on a post, then they are kept out by a transaction, in which putting tags on the post
fails at a blank name, and then the transaction is taken back. -/
theorem counted_of_operations_twoCats :
    let s : Store := .ofContents twoCatsContents ⟨0, 0⟩ .standard
    let steps : List (Operation × Others) := [(.addPostTags 2 ["dog"], othersWaitingFor "dog"),
      (.begin, .absent), (.addPostTags 2 ["dog", ""], othersWaitingFor "dog"), (.rollback 1, .absent)]
    (s.Everywhere fun c => c.TaggingRules ∧ c.Counted) ∧ s.Uncut steps ∧
      ∀ t ∈ s.states steps, t.contents.Counted := by
  intro s steps
  have hs : s.Everywhere fun c => c.TaggingRules ∧ c.Counted :=
    everywhere_of_closed rfl rfl ⟨⟨by decide, by decide⟩, by decide⟩
  have hsteps : s.Uncut steps := by
    have hstart : s.Everywhere (Contents.CountedBut []) :=
      hs.imp fun c hc => Contents.countedBut_nil_iff.2 hc
    have hfirst : ¬ (Operation.addPostTags 2 ["dog"]).CutShort s (othersWaitingFor "dog") := by
      have htag : ((tagPost 2 "dog").runOn s (othersWaitingFor "dog")).1 = .error (.store .locked) := by
        decide +kernel
      have heach : ((addEach 2 ["dog"]).runOn s (othersWaitingFor "dog")).1 =
          .error (.store .locked) := by decide +kernel
      rintro (⟨hchange, -⟩ | ⟨hdone, -⟩)
      · rw [hchange] at htag
        cases htag
      · rw [hdone] at heach
        cases heach
    let made := (Operation.addPostTags 2 ["dog"]).after s (othersWaitingFor "dog")
    let begun := Operation.begin.after made .absent
    have hmade : made.Everywhere (Contents.CountedBut []) :=
      Operation.everywhere_counted_after_of_uncut hstart hfirst
    have hbegun : begun.Everywhere (Contents.CountedBut []) :=
      Operation.everywhere_counted_after_of_uncut hmade id
    have hopen : begun.transaction.isSome = true := by decide +kernel
    refine ⟨hfirst, id, fun hcut => ?_, id, trivial⟩
    rw [(Operation.owing_after_of_cutShort hbegun hcut).1] at hopen
    cases hopen
  exact ⟨hs, hsteps, (counted_of_operations s).1 hs steps hsteps⟩

/-- Right post counts need not stay right. When a transaction that has put them right is taken back, they are
wrong as before. When others take hold of a store between the tagging of a post and the count of it, the count
stays behind. And as long as others hold a store, its counts are not put right. -/
theorem exists_miscounted_after :
    (let s : Store := .ofContents miscountedContents ⟨0, 0⟩ .standard
      let t := Operation.regeneratePostCounts.after (Operation.begin.after s .absent) .absent
      t.contents.TaggingRules ∧ t.contents.Counted ∧
        ¬ ((Operation.rollback 1).after t .absent).contents.Counted) ∧
    (let s : Store := .ofContents twoCatsContents ⟨0, 0⟩ .standard
      let others : Others := fun t => t.contents.taggings.length = 3
      (s.Everywhere fun c => c.TaggingRules ∧ c.Counted) ∧
        ¬ ((Operation.addPostTags 2 ["dog"]).after s others).contents.Counted) ∧
    let s : Store := { Store.ofContents miscountedContents ⟨0, 0⟩ .standard with heldElsewhere := true }
    regeneratePostCounts.runOn s = (.error (.store .locked), s) ∧ ¬ s.contents.Counted := by
  refine ⟨⟨⟨by decide +kernel, by decide +kernel⟩, by decide +kernel, by decide +kernel⟩,
    ⟨everywhere_of_closed rfl rfl ⟨⟨by decide, by decide⟩, by decide⟩, by decide +kernel⟩, rfl, by decide⟩

end Store

end Imageboard
