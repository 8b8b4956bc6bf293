import Imageboard.Proofs.Search.Expiring

/-!
# Counting while accesses fail

A count is given here as a searcher gives it, but each of the two accesses to the remembered counts, the
look and the note, may fail before or after it has done its work, and what is given says where it comes
from. The main statement lists all that a call can do: if it fails, it would have failed without any
remembered counts; otherwise it gives the fixed number of the board, the post count of a tag, what is
remembered and has not expired, or what it has counted, and only this last is noted.
-/

namespace Imageboard

/-- What is there for a reading that succeeds, and what it gives. -/
theorem Work.of_fst_runOn_read {α : Type} {ts : List Table} {vs : List Value} {f : Contents → α}
    {s : Store} {a : α} (h : ((read ts vs f).runOn s).1 = .ok a) :
    Readable ts vs s ∧ a = f s.contents := by
  by_cases hreadable : Readable ts vs s
  · rw [runOn_read_of_readable hreadable] at h
    exact ⟨hreadable, (Except.ok.inj h).symm⟩
  · obtain ⟨e, he⟩ : ∃ e, (read ts vs f).runOn s = (.error e, s) :=
      runOn_read_of_not_readable hreadable f
    simp [he] at h

/-- Work that leaves the store as it is leaves the searcher as it is. -/
theorem SearchWork.runOn_ofWork_of_reads {α : Type} {w : Work α} (hw : Work.Reads w) (s : Searcher) :
    (ofWork w).runOn s = ((w.runOn s.store).1, s) := by
  rw [runOn_ofWork, hw s.store]

namespace Searcher

open Query SearchWork

/-- What becomes of an access to the remembered counts. -/
inductive Access where
  /-- It does its work. -/
  | works
  /-- It fails and does nothing. -/
  | fails
  /-- It does its work and fails. -/
  | failsLate
  deriving DecidableEq, Repr

/-- Work as what becomes of the access lets it be done. -/
def Access.through {α : Type} (a : Access) (w : SearchWork α) : SearchWork α :=
  match a with
  | .works => w
  | .fails => throw .cacheBroken
  | .failsLate => do
    let _ ← w
    throw .cacheBroken

/-- Where an answer comes from. -/
inductive Source where
  /-- The fixed number of the board, for a blank query. -/
  | fixed
  /-- The post count of a tag. -/
  | tag
  /-- A count that is remembered. -/
  | remembered
  /-- The posts, which were counted. -/
  | counted
  /-- The fixed number of the board, after counting failed. -/
  | fallBack
  deriving DecidableEq, Repr

/-- The answers that need no counting, or else what is done with the query, with filters and in normal
form. -/
def unlessKnown (config : Config) (viewer : Viewer) (query : String)
    (otherwise : String → String → SearchWork (Int × Source)) : SearchWork (Int × Source) := do
  let effective ← SearchWork.lift (effectiveQuery config viewer query)
  let normalized ← SearchWork.lift (normalize effective)
  match normalized.isEmpty, config.blankSearchFastCount with
  | true, some n => return (n, .fixed)
  | _, _ =>
    match ← simpleTagCount config normalized with
    | some n => return (n, .tag)
    | none => otherwise effective normalized

/-- Where a count comes from that was made or could not be made. -/
def sourceOf (counted : Bool) : Source :=
  if counted then .counted else .fallBack

/-- Counts the rows of a plan and notes the count. -/
def countAndNote (writing : Access) (config : Config) (key : String) (plan : Plan) :
    SearchWork (Int × Source) := do
  let (n, counted) ← countOrFallBack config plan
  if counted then
    let _ ← (writing.through (cacheSet key n (config.cacheTtl n))).attempt
  return (n, sourceOf counted)

/-- Looks for what is remembered of a key, or else counts. -/
def lookOrCount (reading writing : Access) (config : Config) (viewer : Viewer)
    (effective key : String) : SearchWork (Int × Source) := do
  match (← (reading.through (cacheGet key)).attempt).join with
  | some n => return (n, .remembered)
  | none =>
    let plan ← compile config viewer.withoutFilters effective
    countAndNote writing config key plan

/-- The number of posts that a query selects for a viewer, remembered or counted, while accesses to the
remembered counts may fail. -/
def countThrough (reading writing : Access) (config : Config) (viewer : Viewer) (query : String) :
    SearchWork (Int × Source) :=
  unlessKnown config viewer query fun effective normalized =>
    lookOrCount reading writing config viewer effective (keyMark ++ normalized)

/-- Counts what a query with its filters selects. -/
def countPlainly (config : Config) (viewer : Viewer) (effective : String) :
    SearchWork (Int × Source) := do
  let plan ← compile config viewer.withoutFilters effective
  let (n, counted) ← countOrFallBack config plan
  return (n, sourceOf counted)

/-- The number of posts that a query selects for a viewer, without any remembered counts. -/
def countAfresh (config : Config) (viewer : Viewer) (query : String) : SearchWork (Int × Source) :=
  unlessKnown config viewer query fun effective _ => countPlainly config viewer effective

/-- Where a note works, counting and noting is what a searcher does who finds nothing remembered. -/
theorem map_fst_countAndNote_works (config : Config) (key : String) (plan : Plan) :
    Prod.fst <$> countAndNote .works config key plan = (do
      let (n, counted) ← countOrFallBack config plan
      if counted then
        let _ ← (cacheSet key n (config.cacheTtl n)).attempt
      return n) := by
  rw [countAndNote, map_bind]
  congr 1
  funext ⟨n, counted⟩
  cases counted with
  | false => rfl
  | true => exact map_bind _ _ _

/-- Where both accesses work, this is counting through the cache. -/
theorem fastCount_eq_map_countThrough (config : Config) (viewer : Viewer) (query : String) :
    fastCount config viewer query = Prod.fst <$> countThrough .works .works config viewer query := by
  rw [fastCount, countThrough, unlessKnown, map_bind]
  refine bind_congr fun effective => ?_
  rw [map_bind]
  refine bind_congr fun normalized => ?_
  have hrest : (do
      match ← simpleTagCount config normalized with
      | some n => return n
      | none =>
        let key := keyMark ++ normalized
        match (← (cacheGet key).attempt).join with
        | some n => return n
        | none =>
          let plan ← compile config viewer.withoutFilters effective
          let (n, counted) ← countOrFallBack config plan
          if counted then
            let _ ← (cacheSet key n (config.cacheTtl n)).attempt
          return n) = Prod.fst <$> (do
      match ← simpleTagCount config normalized with
      | some n => return (n, .tag)
      | none => lookOrCount .works .works config viewer effective (keyMark ++ normalized)) := by
    rw [map_bind]
    refine bind_congr fun found => ?_
    cases found with
    | some n => rfl
    | none =>
      dsimp only
      rw [lookOrCount, map_bind]
      refine bind_congr fun remembered => ?_
      cases remembered.join with
      | some n => rfl
      | none =>
        dsimp only
        rw [map_bind]
        exact bind_congr fun plan => (map_fst_countAndNote_works config _ plan).symm
  cases normalized.isEmpty with
  | false => exact hrest
  | true =>
    cases config.blankSearchFastCount with
    | some n => rfl
    | none => exact hrest

variable {s t u : Searcher} {config : Config} {viewer : Viewer} {query key : String} {n : Int}

/-! ## The steps of a call -/

/-- A number is the post count of the tag that a query with its filters consists of. -/
structure IsTagCount (s : Searcher) (config : Config) (viewer : Viewer) (query : String) (n : Int) :
    Prop where
  sole : ∃ effective normalized name tag, effectiveQuery config viewer query = .ok effective ∧
    normalize effective = .ok normalized ∧ soleTag? config normalized = .ok (some name) ∧
    s.store.contents.findTag? (s.answer name) = some tag ∧ n = tag.postCount

/-- A number is what counting the rows of the plan of a query with its filters gives. -/
structure IsCount (s : Searcher) (config : Config) (viewer : Viewer) (query : String) (n : Int) :
    Prop where
  counted : ∃ effective plan, effectiveQuery config viewer query = .ok effective ∧
    Query.compile config s.answer viewer.withoutFilters s.store.clock effective = .ok plan ∧
    ((Search.countPosts plan).runOn s.store).1 = .ok n

/-- Looking for the post count of a sole tag finds it, finds that there is none, or fails. -/
theorem of_runOn_simpleTagCount {normalized : String} {found : Option Int}
    (hrun : (simpleTagCount config normalized).runOn s = (.ok found, t)) :
    t.store = s.store ∧ t.counts = s.counts ∧ t.answer = s.answer ∧
      ∀ n ∈ found, ∃ name tag, soleTag? config normalized = .ok (some name) ∧
        (∃ u, (resolve name).runOn s = (.ok (s.answer name), u)) ∧ s.store.contents.has .tags ∧
        s.store.contents.findTag? (s.answer name) = some tag ∧ n = tag.postCount := by
  have hstore : t.store = s.store := by
    simpa only [hrun] using reads_simpleTagCount config normalized s
  have hcounts : t.counts = s.counts := by
    simpa only [hrun] using (ignoresCounts_simpleTagCount config normalized).counts s
  rw [simpleTagCount] at hrun
  obtain ⟨sole, m, hlift, hrun⟩ := runOn_bind_eq_ok.1 hrun
  obtain ⟨hsole, rfl⟩ := Prod.mk.inj hlift
  cases sole with
  | none =>
    obtain ⟨hfound, rfl⟩ := Prod.mk.inj hrun
    obtain rfl := Except.ok.inj hfound
    exact ⟨hstore, hcounts, rfl, by simp⟩
  | some name =>
    obtain ⟨target, m', hresolve, hrun⟩ := runOn_bind_eq_ok.1 hrun
    obtain ⟨rfl, hstore', hanswer⟩ := of_runOn_resolve hresolve
    obtain ⟨tag, m'', htag, hrun⟩ := runOn_bind_eq_ok.1 hrun
    obtain ⟨hfound, rfl⟩ := Prod.mk.inj hrun
    obtain rfl := Except.ok.inj hfound
    rw [Store.getTag, runOn_ofWork_of_reads (Work.reads_read _ _ _)] at htag
    obtain ⟨hread, rfl⟩ := Prod.mk.inj htag
    obtain ⟨hreadable, hfind⟩ := Work.of_fst_runOn_read hread
    rw [hstore'] at hfind hreadable
    refine ⟨hstore, hcounts, hanswer, fun n hn => ?_⟩
    obtain ⟨tag', htag', hcount⟩ := Option.map_eq_some_iff.1 (Option.mem_def.1 hn)
    exact ⟨name, tag', hsole, ⟨_, hresolve⟩, hreadable.tables _ List.mem_cons_self, hfind ▸ htag',
      hcount.symm⟩

/-- A call fails before anything is looked for, or is answered without counting, or goes on with what is
otherwise done, on a searcher with the same store, counts and answers. -/
theorem runOn_unlessKnown_cases (config : Config) (viewer : Viewer) (query : String) (s : Searcher) :
    (∃ e t, s.Glanced t ∧ ∀ otherwise,
      (unlessKnown config viewer query otherwise).runOn s = (.error e, t)) ∨
    (∃ n, config.blankSearchFastCount = some n ∧ ∀ otherwise,
      (unlessKnown config viewer query otherwise).runOn s = (.ok (n, .fixed), s)) ∨
    (∃ n t, s.IsTagCount config viewer query n ∧ s.Glanced t ∧ ∀ otherwise,
      (unlessKnown config viewer query otherwise).runOn s = (.ok (n, .tag), t)) ∨
    ∃ effective normalized t, effectiveQuery config viewer query = .ok effective ∧
      normalize effective = .ok normalized ∧ t.store = s.store ∧ t.counts = s.counts ∧
      t.answer = s.answer ∧ ∀ otherwise,
        (unlessKnown config viewer query otherwise).runOn s =
          (otherwise effective normalized).runOn t := by
  cases heffective : effectiveQuery config viewer query with
  | error e =>
    refine Or.inl ⟨e, s, .refl s, fun otherwise => ?_⟩
    rw [unlessKnown, runOn_bind, runOn_lift, heffective]
  | ok effective =>
  have hlift : (lift (effectiveQuery config viewer query)).runOn s = (.ok effective, s) := by
    rw [runOn_lift, heffective]
  cases hnormalized : normalize effective with
  | error e =>
    refine Or.inl ⟨e, s, .refl s, fun otherwise => ?_⟩
    rw [unlessKnown, runOn_bind_of_ok hlift, runOn_bind, runOn_lift, hnormalized]
  | ok normalized =>
  have hlift' : (lift (normalize effective)).runOn s = (.ok normalized, s) := by
    rw [runOn_lift, hnormalized]
  by_cases hfixed : normalized.isEmpty = true ∧ ∃ n, config.blankSearchFastCount = some n
  · obtain ⟨hempty, n, hn⟩ := hfixed
    refine Or.inr (Or.inl ⟨n, hn, fun otherwise => ?_⟩)
    rw [unlessKnown, runOn_bind_of_ok hlift, runOn_bind_of_ok hlift', hempty, hn]
    rfl
  · have hrest : ∀ otherwise, (unlessKnown config viewer query otherwise).runOn s =
        (do match ← simpleTagCount config normalized with
            | some n => return (n, .tag)
            | none => otherwise effective normalized : SearchWork (Int × Source)).runOn s := by
      intro otherwise
      rw [unlessKnown, runOn_bind_of_ok hlift, runOn_bind_of_ok hlift']
      split
      next n hempty hn => exact absurd ⟨hempty, n, hn⟩ hfixed
      next => rfl
    rcases hsimple : (simpleTagCount config normalized).runOn s with ⟨e | found, t⟩
    · have hglanced : s.Glanced t := by
        have hstore := reads_simpleTagCount config normalized s
        have hcounts := (ignoresCounts_simpleTagCount config normalized).counts s
        rw [hsimple] at hstore hcounts
        exact .of_counts hstore hcounts
      refine Or.inl ⟨e, t, hglanced, fun otherwise => ?_⟩
      rw [hrest, runOn_bind, hsimple]
    · obtain ⟨hstore, hcounts, hanswer, htag⟩ := of_runOn_simpleTagCount hsimple
      cases found with
      | some n =>
        obtain ⟨name, tag, hsole, -, -, hfind, hn⟩ := htag n rfl
        refine Or.inr (Or.inr (Or.inl ⟨n, t, ⟨effective, normalized, name, tag, heffective, hnormalized,
          hsole, hfind, hn⟩, .of_counts hstore hcounts, fun otherwise => ?_⟩))
        rw [hrest, runOn_bind_of_ok hsimple]
        rfl
      | none =>
        refine Or.inr (Or.inr (Or.inr ⟨effective, normalized, t, rfl, hnormalized, hstore,
          hcounts, hanswer, fun otherwise => ?_⟩))
        rw [hrest, runOn_bind_of_ok hsimple]

/-- What an attempt at an access gives, and the searcher that it leaves. -/
theorem runOn_attempt_through {α : Type} (a : Access) (w : SearchWork α) (s : Searcher) :
    (a.through w).attempt.runOn s =
      (.ok (if a = .works then (w.runOn s).1.toOption else none),
        if a = .fails then s else (w.runOn s).2) := by
  rw [runOn_attempt]
  cases a with
  | works => rfl
  | fails => rfl
  | failsLate =>
    rw [Access.through, runOn_bind]
    rcases w.runOn s with ⟨_ | _, t⟩ <;> rfl

/-- A look that was possible and did not fail has found nothing, or only what has expired. -/
def Missed (s : Searcher) (reading : Access) (key : String) : Prop :=
  reading = .works → s.CanLook → ∀ r ∈ s.remembered? key, hasExpired s.time r.2 = true

/-- An attempt to look finds what is remembered and has not expired, or it has missed nothing else. -/
theorem runOn_attempt_look (reading : Access) (key : String) (s : Searcher) :
    ∃ found t, (reading.through (cacheGet key)).attempt.runOn s = (.ok found, t) ∧
      s.Glanced t ∧ t.aliases = s.aliases ∧
      match found.join with
      | some n => ∃ d, s.remembered? key = some (n, d) ∧ hasExpired s.time d = false
      | none => s.Missed reading key := by
  have hafter : s.Glanced ((cacheGet key).runOn s).2 ∧
      ((cacheGet key).runOn s).2.aliases = s.aliases := by
    rcases runOn_cacheGet_cases key s with ⟨e, he⟩ | ⟨t, ht, hglanced, haliases⟩
    · rw [he]
      exact ⟨.refl s, rfl⟩
    · rw [ht]
      exact ⟨hglanced, haliases⟩
  refine ⟨_, _, runOn_attempt_through reading (cacheGet key) s, ?_, ?_, ?_⟩
  · split
    · exact .refl s
    · exact hafter.1
  · split
    · rfl
    · exact hafter.2
  · by_cases hworks : reading = .works
    · rw [if_pos hworks]
      rcases runOn_cacheGet_cases key s with ⟨e, he⟩ | ⟨t, ht, -⟩
      · rw [he]
        intro _ hlook
        have hok := hlook.runOn_cacheGet key
        rw [he] at hok
        contradiction
      · rw [ht]
        cases hremembered : s.remembered? key with
        | none => exact fun _ _ r hr => by simp [hremembered] at hr
        | some r =>
          obtain ⟨n, d⟩ := r
          cases hexpired : hasExpired s.time d with
          | false =>
            simp only [Option.bind_some, hexpired]
            exact ⟨d, rfl, hexpired⟩
          | true =>
            simp only [Option.bind_some, hexpired]
            intro _ _ r hr
            obtain rfl := Option.some.inj (hremembered.symm.trans hr)
            exact hexpired
    · rw [if_neg hworks]
      exact fun h => absurd h hworks

/-- Whether a count is noted that a call has made. -/
def IsNoted (s : Searcher) (writing : Access) (config : Config) (n : Int) : Prop :=
  writing ≠ .fails ∧ s.CanNote n (config.cacheTtl n)

/-- When a count expires that is noted now. -/
def deadline (s : Searcher) (config : Config) (n : Int) : Binary64 :=
  s.time.add (.ofInt (config.cacheTtl n))

/-- What is left after an attempt to note a count: if it is noted it takes the place of what was
remembered of its key, and otherwise nothing changes. -/
structure AfterNote (writing : Access) (config : Config) (key : String) (n : Int) (s t : Searcher) :
    Prop where
  now : t.now = s.now
  remembered : s.IsNoted writing config n → ∀ other, t.remembered? other =
    if other = key then some (n, s.deadline config n) else s.remembered? other
  glanced : ¬ s.IsNoted writing config n → s.Glanced t

/-- An attempt to note a count never fails, and does nothing else than to note it. -/
theorem runOn_attempt_note (writing : Access) (config : Config) (key : String) (n : Int)
    (s : Searcher) :
    ∃ done t, (writing.through (cacheSet key n (config.cacheTtl n))).attempt.runOn s = (.ok done, t) ∧
      AfterNote writing config key n s t := by
  refine ⟨_, _, runOn_attempt_through writing _ s, ?_⟩
  by_cases hfails : writing = .fails
  · rw [if_pos hfails]
    exact ⟨rfl, fun h => absurd hfails h.1, fun _ => .refl s⟩
  · rw [if_neg hfails]
    rcases runOn_cacheSet_cases key n (config.cacheTtl n) s with
      ⟨hnot, e, he⟩ | ⟨hcan, t, ht, hnow, hput⟩
    · rw [he]
      exact ⟨rfl, fun h => absurd h.2 hnot, fun _ => .refl s⟩
    · rw [ht]
      exact ⟨hnow, fun _ => hput, fun h => absurd ⟨hfails, hcan⟩ h⟩

/-- What counting gives, by what the store gives. -/
def orFallBack (config : Config) : Except Failure Int → Except Failure (Int × Bool)
  | .ok n => .ok (n, true)
  | .error (.execution activity cause command) =>
    match config.blankSearchFastCount with
    | some n => .ok (n, false)
    | none => .error (.execution activity cause command)
  | .error e => .error e

/-- Counting leaves everything as it is, and what it gives depends on the store alone. -/
theorem runOn_countOrFallBack_eq (config : Config) (plan : Plan) (s : Searcher) :
    (countOrFallBack config plan).runOn s =
      (orFallBack config ((Search.countPosts plan).runOn s.store).1, s) := by
  have hrun : (ofWork (Search.countPosts plan)).run.run s = _ :=
    runOn_ofWork_of_reads (reads_countPosts plan) s
  unfold countOrFallBack SearchWork.runOn
  rw [ExceptT.run_mk, StateT.run, hrun]
  rcases ((Search.countPosts plan).runOn s.store).1 with e | n
  · cases e with
    | execution activity cause command =>
      rw [orFallBack]
      cases config.blankSearchFastCount <;> rfl
    | _ => rfl
  · rfl

/-- What is given is the count, or else the fixed number of the board. -/
theorem of_orFallBack_eq_ok {r : Except Failure Int} {counted : Bool}
    (h : orFallBack config r = .ok (n, counted)) :
    if counted then r = .ok n else config.blankSearchFastCount = some n := by
  unfold orFallBack at h
  split at h
  · cases h
    rfl
  · cases hblank : config.blankSearchFastCount with
    | some m =>
      rw [hblank] at h
      cases h
      rfl
    | none =>
      rw [hblank] at h
      contradiction
  · contradiction

/-- Making the plan of a query with its filters, or counting its rows, fails. -/
def FailsToCount (s : Searcher) (config : Config) (viewer : Viewer) (effective : String)
    (e : Failure) : Prop :=
  match (compile config viewer.withoutFilters effective).runOn s with
  | (.error e', _) => e' = e
  | (.ok plan, t) => ((countOrFallBack config plan).runOn t).1 = .error e

/-- Counting plainly fails where making the plan or counting its rows fails after a look at the
remembered counts. -/
theorem FailsToCount.fst_runOn_countPlainly {effective : String} {e : Failure}
    (hfails : u.FailsToCount config viewer effective e) (hstore : u.store = t.store)
    (haliases : u.aliases = t.aliases) :
    ((countPlainly config viewer effective).runOn t).1 = .error e := by
  obtain ⟨store, aliases, counts⟩ := u
  obtain rfl : store = t.store := hstore
  obtain rfl : aliases = t.aliases := haliases
  have hsame := ignoresCounts_compile config viewer.withoutFilters effective t counts
  have hcase := hfails
  rw [FailsToCount, hsame] at hcase
  rw [countPlainly, runOn_bind]
  rcases hcompile : (compile config viewer.withoutFilters effective).runOn t with ⟨e' | plan, v⟩
  · rw [hcompile] at hcase
    exact congrArg Except.error hcase
  · rw [hcompile] at hcase
    dsimp only at hcase ⊢
    rw [runOn_countOrFallBack_eq] at hcase
    rw [runOn_bind, runOn_countOrFallBack_eq, show orFallBack config _ = _ from hcase]

/-! ## A whole call -/

/-- How a call can end: what it gives and what it leaves. -/
inductive Ending (reading writing : Access) (config : Config) (viewer : Viewer) (query : String)
    (s : Searcher) : Except Failure (Int × Source) → Searcher → Prop where
  | failed {e : Failure} {t : Searcher}
      (afresh : ((countAfresh config viewer query).runOn s).1 = .error e) (glanced : s.Glanced t) :
      Ending reading writing config viewer query s (.error e) t
  | fixed {n : Int} (blank : config.blankSearchFastCount = some n) :
      Ending reading writing config viewer query s (.ok (n, .fixed)) s
  | tag {n : Int} {t : Searcher} (tag : s.IsTagCount config viewer query n) (glanced : s.Glanced t) :
      Ending reading writing config viewer query s (.ok (n, .tag)) t
  | remembered {n : Int} {d : Binary64} {key : String} {t : Searcher}
      (hkey : cacheKey config viewer query = .ok key) (found : s.remembered? key = some (n, d))
      (lasting : hasExpired s.time d = false) (glanced : s.Glanced t) :
      Ending reading writing config viewer query s (.ok (n, .remembered)) t
  | counted {n : Int} {key : String} {t u : Searcher} (hkey : cacheKey config viewer query = .ok key)
      (missed : s.Missed reading key) (count : s.IsCount config viewer query n)
      (glanced : s.Glanced u) (noted : AfterNote writing config key n u t) :
      Ending reading writing config viewer query s (.ok (n, .counted)) t
  | fallBack {n : Int} {key : String} {t : Searcher} (hkey : cacheKey config viewer query = .ok key)
      (missed : s.Missed reading key) (blank : config.blankSearchFastCount = some n)
      (glanced : s.Glanced t) :
      Ending reading writing config viewer query s (.ok (n, .fallBack)) t

/-- What has been missed on a searcher with the same store and counts has been missed. -/
theorem Missed.of_counts {reading : Access} (h : t.Missed reading key) (hstore : t.store = s.store)
    (hcounts : t.counts = s.counts) : s.Missed reading key := by
  intro hworks hlook r hr
  have hlook' : t.CanLook := by
    rw [CanLook, hstore, hcounts]
    exact hlook
  have hr' : r ∈ t.remembered? key := by
    rw [remembered?, hstore, hcounts]
    exact hr
  have htime : t.time = s.time := by
    rw [time, hstore, hcounts]
    rfl
  exact htime ▸ h hworks hlook' r hr'

/-- A call can end in no other way. -/
theorem ending_countThrough (reading writing : Access) (config : Config) (viewer : Viewer)
    (query : String) (s : Searcher) :
    Ending reading writing config viewer query s
      ((countThrough reading writing config viewer query).runOn s).1
      ((countThrough reading writing config viewer query).runOn s).2 := by
  rw [countThrough]
  rcases runOn_unlessKnown_cases config viewer query s with
    ⟨e, t, hglanced, hrun⟩ | ⟨n, hblank, hrun⟩ | ⟨n, t, htag, hglanced, hrun⟩ |
      ⟨effective, normalized, t, heffective, hnormalized, hstore, hcounts, hanswer, hrun⟩
  · rw [hrun]
    exact .failed (by rw [countAfresh, hrun]) hglanced
  · rw [hrun]
    exact .fixed hblank
  · rw [hrun]
    exact .tag htag hglanced
  have hkey : cacheKey config viewer query = .ok (keyMark ++ normalized) := by
    rw [cacheKey, heffective]
    simp only [hnormalized]
    rfl
  have hglanced : s.Glanced t := .of_counts hstore hcounts
  have hsame : t.remembered? = s.remembered? := by
    funext other
    rw [remembered?, remembered?, hstore, hcounts]
  have htime : t.time = s.time := by rw [time_eq, time_eq, hglanced.now]
  rw [hrun, lookOrCount]
  obtain ⟨found, u, hlook, hglanced', haliases, hfound⟩ :=
    runOn_attempt_look reading (keyMark ++ normalized) t
  rw [runOn_bind_of_ok hlook]
  cases hjoin : found.join with
  | some n =>
    rw [hjoin] at hfound
    obtain ⟨d, hremembered, hlasting⟩ := hfound
    exact .remembered hkey (hsame ▸ hremembered) (htime ▸ hlasting) (hglanced.trans hglanced')
  | none =>
    rw [hjoin] at hfound
    have hmissed : s.Missed reading (keyMark ++ normalized) := hfound.of_counts hstore hcounts
    have hanswer' : u.answer = s.answer := by
      rw [← hanswer]
      funext name
      rw [answer, answer, refreshed, refreshed, haliases, hglanced'.store]
    -- A call that fails from here on fails without a look, too.
    have hafresh : ∀ e, u.FailsToCount config viewer effective e →
        ((countAfresh config viewer query).runOn s).1 = .error e := by
      intro e hfails
      rw [countAfresh, hrun]
      exact hfails.fst_runOn_countPlainly hglanced'.store haliases
    dsimp only
    rcases hcompile : (compile config viewer.withoutFilters effective).runOn u with ⟨e | plan, v⟩
    · have hcounts' := (ignoresCounts_compile config viewer.withoutFilters effective).counts u
      have hstore' := reads_compile config viewer.withoutFilters effective u
      rw [hcompile] at hcounts' hstore'
      rw [runOn_bind, hcompile]
      exact .failed (hafresh e (by rw [FailsToCount, hcompile]))
        (hglanced.trans (hglanced'.trans (.of_counts hstore' hcounts')))
    · have hcounts' := (ignoresCounts_compile config viewer.withoutFilters effective).counts u
      have hstore' := reads_compile config viewer.withoutFilters effective u
      rw [hcompile] at hcounts' hstore'
      have hv : s.Glanced v := hglanced.trans (hglanced'.trans (.of_counts hstore' hcounts'))
      have hplan := of_runOn_compile hcompile
      rw [hanswer', (hglanced.trans hglanced').store] at hplan
      rw [runOn_bind_of_ok hcompile, countAndNote, runOn_bind]
      rw [runOn_countOrFallBack_eq]
      cases hcount : orFallBack config ((Search.countPosts plan).runOn v.store).1 with
      | error e =>
        refine .failed (hafresh e ?_) hv
        rw [FailsToCount, hcompile]
        exact (congrArg Prod.fst (runOn_countOrFallBack_eq config plan v)).trans hcount
      | ok r =>
        obtain ⟨n, counted⟩ := r
        have hn := of_orFallBack_eq_ok hcount
        cases counted with
        | false => exact .fallBack hkey hmissed hn hv
        | true =>
          obtain ⟨done, w, hnote, hafter⟩ :=
            runOn_attempt_note writing config (keyMark ++ normalized) n v
          dsimp only
          rw [if_pos rfl, runOn_bind_of_ok hnote]
          exact .counted hkey hmissed ⟨effective, plan, heffective, hplan, hv.store ▸ hn⟩ hv hafter

end Searcher

end Imageboard
