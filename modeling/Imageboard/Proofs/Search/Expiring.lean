import Imageboard.Proofs.Search.Answering
import Imageboard.Proofs.Search.Deadlines
import Imageboard.Proofs.Search.FastCounting

/-!
# Looking at remembered counts

What an access to the remembered counts can do is said here once for both places where they are kept:
a look finds what is remembered of a key unless it has expired, and may forget what has; a note puts a
count in the place of what was remembered of its key, or fails and changes nothing. Everything else
that a searcher does for an answer is blind to the remembered counts.
-/

namespace Imageboard

namespace SearchWork

variable {α β : Type}

/-- Work of a searcher that is blind to the remembered counts and leaves them alone. -/
def IgnoresCounts (w : SearchWork α) : Prop :=
  ∀ s counts, w.runOn { s with counts := counts } =
    ((w.runOn s).1, { (w.runOn s).2 with counts := counts })

/-- A plain result is blind to counts. -/
theorem ignoresCounts_pure (a : α) : IgnoresCounts (pure a) := fun _ _ => rfl

/-- A plain computation is blind to counts. -/
theorem ignoresCounts_lift (r : Except Failure α) : IgnoresCounts (lift r) := fun _ _ => rfl

/-- Work on the store is blind to counts that a searcher remembers. -/
theorem ignoresCounts_ofWork (w : Work α) : IgnoresCounts (ofWork w) := fun _ _ => rfl

/-- A change is blind to counts if it leaves them as they are. -/
theorem ignoresCounts_modify {f : Searcher → Searcher}
    (hf : ∀ s counts, f { s with counts := counts } = { f s with counts := counts }) :
    IgnoresCounts (modify f) := by
  intro s counts
  exact congrArg (fun t => (Except.ok PUnit.unit, t)) (hf s counts)

/-- A sequence of steps that are blind to counts is so too. -/
theorem IgnoresCounts.bind {x : SearchWork α} {f : α → SearchWork β} (hx : IgnoresCounts x)
    (hf : ∀ a, IgnoresCounts (f a)) : IgnoresCounts (x >>= f) := by
  intro s counts
  rw [runOn_bind, runOn_bind, hx s counts]
  rcases x.runOn s with ⟨_ | a, m⟩
  · rfl
  · exact hf a m counts

/-- Work that looks at the searcher is blind to counts if it makes no use of them. -/
theorem ignoresCounts_get_bind {f : Searcher → SearchWork β} (hf : ∀ s, IgnoresCounts (f s))
    (hsame : ∀ s counts, f { s with counts := counts } = f s) : IgnoresCounts (get >>= f) := by
  intro s counts
  rw [runOn_bind_of_ok (runOn_get _), runOn_bind_of_ok (runOn_get s), hsame]
  exact hf s s counts

/-- Work that is blind to counts leaves them as they are. -/
theorem IgnoresCounts.counts {w : SearchWork α} (h : IgnoresCounts w) (s : Searcher) :
    (w.runOn s).2.counts = s.counts :=
  congrArg (fun p => p.2.counts) (h s s.counts)

end SearchWork

namespace Searcher

open SearchWork

/-- Finding out what a name stands for is blind to counts. -/
theorem ignoresCounts_resolve (name : String) : IgnoresCounts (resolve name) := by
  refine (ignoresCounts_modify (by intro _ _; rfl)).bind fun _ =>
    ignoresCounts_get_bind (fun s => ?_) fun _ _ => rfl
  cases s.aliases.find? name with
  | some target => exact ignoresCounts_pure _
  | none =>
    exact (ignoresCounts_ofWork _).bind fun _ =>
      (ignoresCounts_modify (by intro _ _; rfl)).bind fun _ => ignoresCounts_pure _

/-- Finding out what some names stand for is blind to counts. -/
theorem ignoresCounts_resolveEach (names : List String) : IgnoresCounts (resolveEach names) := by
  induction names with
  | nil => exact ignoresCounts_pure _
  | cons name rest ih =>
    exact (ignoresCounts_resolve name).bind fun _ => ih.bind fun _ => ignoresCounts_pure _

/-- Making a plan is blind to counts. -/
theorem ignoresCounts_compile (config : Config) (viewer : Viewer) (query : String) :
    IgnoresCounts (compile config viewer query) :=
  ignoresCounts_get_bind (fun _ => (ignoresCounts_lift _).bind fun _ =>
    (ignoresCounts_resolveEach _).bind fun _ => ignoresCounts_lift _) fun _ _ => rfl

/-- Looking for the post count of a sole tag is blind to remembered counts. -/
theorem ignoresCounts_simpleTagCount (config : Config) (normalized : String) :
    IgnoresCounts (simpleTagCount config normalized) := by
  refine (ignoresCounts_lift _).bind fun found => ?_
  cases found with
  | none => exact ignoresCounts_pure _
  | some name =>
    exact (ignoresCounts_resolve name).bind fun _ => (ignoresCounts_ofWork _).bind fun _ =>
      ignoresCounts_pure _

/-- Looking for the post count of a sole tag leaves the store as it is. -/
theorem reads_simpleTagCount (config : Config) (normalized : String) :
    Reads (simpleTagCount config normalized) := by
  refine (reads_lift _).bind fun found => ?_
  cases found with
  | none => exact reads_pure _
  | some name =>
    exact (reads_resolve name).bind fun _ => (reads_ofWork (Work.reads_read _ _ _)).bind fun _ =>
      reads_pure _

/-- Counting posts leaves the store as it is. -/
theorem reads_countPosts (plan : Query.Plan) : Work.Reads (Search.countPosts plan) :=
  Work.Reads.bind (fun _ => rfl) fun _ => Work.Reads.adapt (Work.reads_read _ _ _)

/-! ## What is remembered -/

/-- What is remembered of a key: a count, and when it expires. -/
def remembered? (s : Searcher) (key : String) : Option (Int × Binary64) :=
  match s.counts.backend with
  | .memory entries => (entries.find? (·.1 = key)).map (·.2)
  | .table => (s.store.contents.findCount? key).map fun r => (r.count, r.expiresAt)
  | .broken => none

/-- The time that counts expire by, in seconds. -/
def now (s : Searcher) : Int :=
  s.store.clock.wall - s.store.clock.ahead - s.counts.origin

variable {s t : Searcher} {key : String}

/-- The clock shows the time in seconds. -/
theorem time_eq (s : Searcher) : s.time = .ofInt s.now := rfl

/-- Where nothing is remembered, nothing is remembered of a key. -/
theorem HasEmptyCache.remembered?_eq_none (h : s.HasEmptyCache) (key : String) :
    s.remembered? key = none := by
  unfold HasEmptyCache at h
  unfold remembered?
  cases hbackend : s.counts.backend with
  | broken => rfl
  | memory entries =>
    rw [hbackend] at h
    simp [show entries = [] from h]
  | table =>
    rw [hbackend] at h
    simp [Contents.findCount?, show s.store.contents.cachedCounts = [] from h]

/-- When it is possible to note a count for some seconds. -/
structure CanNote (s : Searcher) (count ttl : Int) : Prop where
  finite : ∃ expiresAt, s.expiry ttl = .ok expiresAt
  writable : match s.counts.backend with
    | .memory _ => True
    | .table => Work.Writable [.countCache] [.integer count] s.store
    | .broken => False

/-- What is left after a searcher has looked at remembered counts: the same store at the same time, in
which at most counts that have expired are forgotten. -/
structure Glanced (s t : Searcher) : Prop where
  store : t.store = s.store
  now : t.now = s.now
  canNote : ∀ count ttl, t.CanNote count ttl ↔ s.CanNote count ttl
  remembered : ∀ key, t.remembered? key = s.remembered? key ∨
    t.remembered? key = none ∧ ∃ r ∈ s.remembered? key, hasExpired s.time r.2 = true

/-- The same counts are remembered by a searcher with the same store and the same counts. -/
theorem Glanced.of_counts (hstore : t.store = s.store) (hcounts : t.counts = s.counts) :
    s.Glanced t := by
  obtain ⟨store, aliases, counts⟩ := t
  obtain rfl : store = s.store := hstore
  obtain rfl : counts = s.counts := hcounts
  exact ⟨rfl, rfl, fun _ _ => ⟨fun h => ⟨h.finite, h.writable⟩, fun h => ⟨h.finite, h.writable⟩⟩,
    fun _ => Or.inl rfl⟩

/-- What is left if nothing is done. -/
theorem Glanced.refl (s : Searcher) : s.Glanced s :=
  .of_counts rfl rfl

/-- What is left after two looks is left after one. -/
theorem Glanced.trans {u : Searcher} (h : s.Glanced t) (h' : t.Glanced u) : s.Glanced u where
  store := h'.store.trans h.store
  now := h'.now.trans h.now
  canNote count ttl := (h'.canNote count ttl).trans (h.canNote count ttl)
  remembered key := by
    have htime : t.time = s.time := by rw [time_eq, time_eq, h.now]
    rcases h.remembered key with hsame | ⟨hgone, hexpired⟩
    · rw [← hsame, ← htime]
      exact h'.remembered key
    · refine Or.inr ⟨?_, hexpired⟩
      rcases h'.remembered key with hsame | ⟨hgone', -⟩
      · exact hsame.trans hgone
      · exact hgone'

/-! ## Accesses -/

section Lists

variable {α : Type} {f : α → String}

/-- Of a key that is dropped nothing is found, and other keys are found as before. -/
theorem find?_filter_ne (l : List α) (key other : String) :
    (l.filter fun a => f a ≠ key).find? (fun a => f a = other) =
      if other = key then none else l.find? fun a => f a = other := by
  rw [List.find?_filter]
  split
  next heq =>
    subst heq
    refine List.find?_eq_none.2 fun a _ => ?_
    simp
  next hne =>
    congr 1
    funext a
    by_cases ha : f a = other
    · simp [ha, hne]
    · simp [ha]

/-- Of a key that is put anew what was put is found, and other keys are found as before. -/
theorem find?_filter_append (l : List α) (a : α) (other : String) :
    (l.filter (fun b => f b ≠ f a) ++ [a]).find? (fun b => f b = other) =
      if other = f a then some a else l.find? fun b => f b = other := by
  rw [List.find?_append, find?_filter_ne]
  by_cases hother : other = f a
  · simp [hother]
  · simp [hother, Ne.symm hother]

end Lists

/-- A look finds what is remembered of the key unless it has expired, or it fails. -/
theorem runOn_cacheGet_cases (key : String) (s : Searcher) :
    (∃ e, (cacheGet key).runOn s = (.error e, s)) ∨
      ∃ t, (cacheGet key).runOn s = (.ok ((s.remembered? key).bind fun r =>
          if hasExpired s.time r.2 then none else some r.1), t) ∧
        s.Glanced t ∧ t.aliases = s.aliases := by
  rw [cacheGet, runOn_bind_of_ok (runOn_get s), remembered?]
  cases hbackend : s.counts.backend with
  | broken => exact Or.inl ⟨_, rfl⟩
  | table =>
    dsimp only
    by_cases hreadable : Work.Readable [.countCache] [] s.store
    · refine Or.inr ⟨s, ?_, Glanced.refl s, rfl⟩
      rw [runOn_bind_of_ok (runOn_ofWork_read_of_readable hreadable _)]
      cases s.store.contents.findCount? key <;> rfl
    · obtain ⟨e, hread⟩ := runOn_ofWork_read_of_not_readable hreadable fun c => c.findCount? key
      refine Or.inl ⟨e, ?_⟩
      rw [runOn_bind, hread]
  | memory entries =>
    dsimp only
    refine Or.inr ?_
    cases hfound : entries.find? (·.1 = key) with
    | none => exact ⟨s, rfl, Glanced.refl s, rfl⟩
    | some entry =>
      obtain ⟨name, count, expiresAt⟩ := entry
      by_cases hexpired : hasExpired s.time expiresAt = true
      · have hset : (setEntries (entries.filter (·.1 ≠ key))).runOn s =
            (.ok ⟨⟩, { s with counts := { s.counts with
              backend := .memory (entries.filter (·.1 ≠ key)) } }) := rfl
        refine ⟨{ s with counts := { s.counts with
          backend := .memory (entries.filter (·.1 ≠ key)) } }, ?_,
          ⟨rfl, rfl, fun count ttl => ?_, fun other => ?_⟩, rfl⟩
        · dsimp only [Option.map_some, Option.bind_some]
          rw [if_pos hexpired, if_pos hexpired, runOn_bind_of_ok hset]
          rfl
        · constructor <;> exact fun h => ⟨h.finite, by simp [hbackend]⟩
        · simp only [remembered?, hbackend]
          have hdrop := find?_filter_ne (f := (·.1)) entries key other
          rw [hdrop]
          by_cases hother : other = key
          · subst hother
            rw [if_pos rfl, hfound]
            exact Or.inr ⟨rfl, (count, expiresAt), rfl, hexpired⟩
          · rw [if_neg hother]
            exact Or.inl rfl
      · refine ⟨s, ?_, Glanced.refl s, rfl⟩
        dsimp only [Option.map_some, Option.bind_some]
        rw [if_neg hexpired, if_neg hexpired]
        rfl

/-- Whether a look at the remembered counts is possible. -/
def CanLook (s : Searcher) : Prop :=
  match s.counts.backend with
  | .memory _ => True
  | .table => s.store.contents.has .countCache
  | .broken => False

/-- A look that is possible does not fail. -/
theorem CanLook.runOn_cacheGet (h : s.CanLook) (key : String) :
    ((cacheGet key).runOn s).1 = .ok ((s.remembered? key).bind fun r =>
      if hasExpired s.time r.2 then none else some r.1) := by
  rcases runOn_cacheGet_cases key s with ⟨e, herror⟩ | ⟨t, hok, -⟩
  · exfalso
    rw [cacheGet, runOn_bind_of_ok (runOn_get s)] at herror
    unfold CanLook at h
    cases hbackend : s.counts.backend with
    | broken => simp [hbackend] at h
    | table =>
      rw [hbackend] at h herror
      have hreadable : Work.Readable [.countCache] [] s.store :=
        ⟨fun t ht => by rwa [List.mem_singleton.1 ht], rfl⟩
      dsimp only at herror
      rw [runOn_bind_of_ok (runOn_ofWork_read_of_readable hreadable _)] at herror
      cases congrArg Prod.fst herror
    | memory entries =>
      rw [hbackend] at herror
      dsimp only at herror
      split at herror
      · cases congrArg Prod.fst herror
      · split at herror
        · have hset : ∀ l, (setEntries l).runOn s = (.ok ⟨⟩, { s with counts := { s.counts with
              backend := .memory l } }) := fun _ => rfl
          rw [runOn_bind_of_ok (hset _)] at herror
          cases congrArg Prod.fst herror
        · cases congrArg Prod.fst herror
  · rw [hok]

/-- A deadline is the present time and the seconds. -/
theorem expiry_eq_ok {ttl : Int} {expiresAt : Binary64} (h : s.expiry ttl = .ok expiresAt) :
    expiresAt = s.time.add (.ofInt ttl) := by
  rw [expiry] at h
  split at h
  · contradiction
  · exact (Except.ok.inj h).symm

/-- A note puts the count in the place of what was remembered of the key, or it is not possible and
changes nothing. -/
theorem runOn_cacheSet_cases (key : String) (count ttl : Int) (s : Searcher) :
    (¬ s.CanNote count ttl ∧ ∃ e, (cacheSet key count ttl).runOn s = (.error e, s)) ∨
      s.CanNote count ttl ∧ ∃ t, (cacheSet key count ttl).runOn s = (.ok (), t) ∧ t.now = s.now ∧
        ∀ other, t.remembered? other =
          if other = key then some (count, s.time.add (.ofInt ttl)) else s.remembered? other := by
  rw [cacheSet, runOn_bind_of_ok (runOn_get s)]
  cases hbackend : s.counts.backend with
  | broken =>
    refine Or.inl ⟨fun h => ?_, _, rfl⟩
    simpa [hbackend] using h.writable
  | table =>
    dsimp only
    rw [runOn_bind, runOn_lift]
    cases hexpiry : s.expiry ttl with
    | error e =>
      refine Or.inl ⟨fun h => ?_, e, rfl⟩
      obtain ⟨d, hd⟩ := h.finite
      simp [hexpiry] at hd
    | ok expiresAt =>
      obtain rfl := expiry_eq_ok hexpiry
      dsimp only
      by_cases hwritable : Work.Writable [.countCache] [.integer count] s.store
      · let noted := s.store.contents.putCount ⟨key, count, s.time.add (.ofInt ttl)⟩
        refine Or.inr ⟨⟨⟨_, hexpiry⟩, by simpa [hbackend] using hwritable⟩,
          { s with store := { s.store with contents := noted } }, ?_, rfl, ?_⟩
        · rw [runOn_ofWork, Work.runOn_write_of_writable hwritable]
        intro other
        have hfind := find?_filter_append (f := CachedCount.key) s.store.contents.cachedCounts
          ⟨key, count, s.time.add (.ofInt ttl)⟩ other
        simp only [remembered?, hbackend, noted, Contents.findCount?, Contents.putCount, hfind]
        split <;> rfl
      · obtain ⟨e, he⟩ := Work.runOn_write_of_not_writable hwritable fun c =>
          .ok ((), c.putCount ⟨key, count, s.time.add (.ofInt ttl)⟩)
        refine Or.inl ⟨fun h => hwritable (by simpa [hbackend] using h.writable), e, ?_⟩
        rw [runOn_ofWork, he]
  | memory entries =>
    dsimp only
    rw [runOn_bind, runOn_lift]
    cases hexpiry : s.expiry ttl with
    | error e =>
      refine Or.inl ⟨fun h => ?_, e, rfl⟩
      obtain ⟨d, hd⟩ := h.finite
      simp [hexpiry] at hd
    | ok expiresAt =>
      obtain rfl := expiry_eq_ok hexpiry
      let noted := entries.filter (·.1 ≠ key) ++ [(key, count, s.time.add (.ofInt ttl))]
      refine Or.inr ⟨⟨⟨_, hexpiry⟩, by simp [hbackend]⟩,
        { s with counts := { s.counts with backend := .memory noted } }, rfl, rfl, ?_⟩
      intro other
      have hfind := find?_filter_append (f := fun e : String × Int × Binary64 => e.1) entries
        (key, count, s.time.add (.ofInt ttl)) other
      simp only [remembered?, hbackend, noted, hfind]
      split <;> rfl

end Searcher

end Imageboard
