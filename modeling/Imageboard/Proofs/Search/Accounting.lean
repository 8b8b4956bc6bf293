import Imageboard.Proofs.Search.Faltering
import Imageboard.Proofs.Search.Selecting

/-!
# The account of the counts

A searcher answers one query after the other, while the store changes, time passes, and accesses to the
remembered counts fail as they like. An account is kept of the counts that it makes. What is remembered
of a key is then always the latest count in the account that was noted under this key, unless its time
is over. The main statement reads off it what each next call can answer: the fixed number of the board,
the post count of a tag, a new count, or a count of the account with the same key whose time is not
over; and that a call fails only if it would fail without any remembered counts.
-/

namespace Imageboard

/-- How a store is changed apart from its clock and the counts remembered in it. -/
def Store.changedBy (f : Store → Store) (s : Store) : Store :=
  { f s with
    clock := s.clock
    contents := { (f s).contents with cachedCounts := s.contents.cachedCounts } }

/-- Until some time, counts that are noted from some time on expire exactly when their seconds are
over. -/
def Config.ExactBetween (config : Config) (first last : Int) : Prop :=
  ∀ time now count, first ≤ time → time ≤ now → now ≤ last →
    Searcher.hasExpired (.ofInt now) ((Binary64.ofInt time).add (.ofInt (config.cacheTtl count))) =
      decide (time + config.cacheTtl count ≤ now)

/-- Counts expire exactly when their seconds are over as long as these numbers have 52 bits. -/
theorem Config.exactBetween_of_bounds {config : Config} {first last : Int} (hfirst : -2 ^ 52 < first)
    (hlast : last < 2 ^ 52) (hmin : config.countCacheMinTtl.natAbs < 2 ^ 52)
    (hmax : config.countCacheMaxTtl.natAbs < 2 ^ 52) : config.ExactBetween first last := by
  intro time now count htime hnow hend
  have httl : (config.cacheTtl count).natAbs < 2 ^ 52 := by
    rw [Config.cacheTtl]
    omega
  exact Searcher.hasExpired_add (by omega) (by omega) (by omega) (by omega)

/-- What some work gives is changed when it is done. -/
theorem SearchWork.fst_runOn_map {α β : Type} (f : α → β) (w : SearchWork α) (s : Searcher) :
    ((f <$> w).runOn s).1 = (w.runOn s).1.map f := by
  rw [map_eq_pure_bind, runOn_bind]
  rcases w.runOn s with ⟨_ | _, t⟩ <;> rfl

namespace Searcher

open Query SearchWork

/-- A count that a call has made. -/
structure Computed where
  viewer : Viewer
  query : String
  count : Int
  /-- The searcher before the call. -/
  searcher : Searcher
  /-- Whether the count was noted. -/
  noted : Prop

/-- A searcher with the counts that it has made, the latest first. -/
structure Ledger where
  searcher : Searcher
  computed : List Computed

/-- Something that happens to a searcher. -/
inductive Event where
  /-- It is asked for a count while accesses to the remembered counts may fail. -/
  | call (reading writing : Access) (viewer : Viewer) (query : String)
  /-- The store is changed, apart from its clock and the counts remembered in it. -/
  | change (f : Store → Store)
  /-- Time passes. -/
  | advance (seconds : Nat)

/-- A count was noted under a key. -/
def Computed.NotedUnder (r : Computed) (config : Config) (key : String) : Prop :=
  r.noted ∧ cacheKey config r.viewer r.query = .ok key

/-- When the time of a count is over. -/
def Computed.ending (r : Computed) (config : Config) : Int :=
  r.searcher.now + config.cacheTtl r.count

/-- The latest count that was noted under a key. -/
inductive IsLatest (config : Config) (key : String) : List Computed → Computed → Prop where
  | here {r : Computed} {rest : List Computed} (noted : r.NotedUnder config key) :
      IsLatest config key (r :: rest) r
  | later {r x : Computed} {rest : List Computed} (other : ¬ x.NotedUnder config key)
      (latest : IsLatest config key rest r) : IsLatest config key (x :: rest) r

namespace Ledger

/-- The account after a call: a count is entered if one was made. -/
def enter (l : Ledger) (writing : Access) (config : Config) (viewer : Viewer) (query : String) :
    Except Failure (Int × Source) → List Computed
  | .ok (n, .counted) =>
    ⟨viewer, query, n, l.searcher, l.searcher.IsNoted writing config n⟩ :: l.computed
  | _ => l.computed

/-- A searcher and its account after something has happened. -/
def after (config : Config) (l : Ledger) : Event → Ledger
  | .call reading writing viewer query =>
    let answered := (countThrough reading writing config viewer query).runOn l.searcher
    ⟨answered.2, l.enter writing config viewer query answered.1⟩
  | .change f => { l with searcher.store := l.searcher.store.changedBy f }
  | .advance seconds =>
    { l with searcher.store.clock.wall := l.searcher.store.clock.wall + seconds }

/-- A searcher and its account after a run. -/
def run (config : Config) (l : Ledger) (events : List Event) : Ledger :=
  events.foldl (after config) l

end Ledger

/-! ## What is remembered is the latest count -/

section Latest

variable {config : Config} {key : String} {r x : Computed} {rest : List Computed}

/-- The latest count is in the account. -/
theorem IsLatest.mem (h : IsLatest config key rest r) : r ∈ rest := by
  induction h with
  | here => exact List.mem_cons_self
  | later _ _ ih => exact List.mem_cons_of_mem _ ih

/-- The latest count was noted under its key. -/
theorem IsLatest.notedUnder (h : IsLatest config key rest r) : r.NotedUnder config key := by
  induction h with
  | here noted => exact noted
  | later _ _ ih => exact ih

/-- A count that is entered and noted under a key is the latest. -/
theorem isLatest_cons_of_notedUnder (h : x.NotedUnder config key) :
    IsLatest config key (x :: rest) r ↔ r = x := by
  constructor
  · rintro (_ | ⟨hnot, -⟩)
    · rfl
    · exact absurd h hnot
  · rintro rfl
    exact .here h

/-- A count that is entered and not noted under a key leaves the latest one the latest. -/
theorem isLatest_cons_of_not_notedUnder (h : ¬ x.NotedUnder config key) :
    IsLatest config key (x :: rest) r ↔ IsLatest config key rest r := by
  constructor
  · rintro (hnoted | ⟨-, hlatest⟩)
    · exact absurd hnoted h
    · exact hlatest
  · exact .later h

end Latest

/-- What always holds of a searcher and its account: the counts were made from the first time on until
now, and what is remembered of a key is the latest count that was noted under it, or nothing if the time
of this count is over. -/
structure Ledger.InStep (config : Config) (first : Int) (l : Ledger) : Prop where
  began : first ≤ l.searcher.now
  times : ∀ r ∈ l.computed, first ≤ r.searcher.now ∧ r.searcher.now ≤ l.searcher.now
  counts : ∀ r ∈ l.computed, r.searcher.IsCount config r.viewer r.query r.count
  remembered : ∀ key n d, l.searcher.remembered? key = some (n, d) →
    ∃ r, IsLatest config key l.computed r ∧ n = r.count ∧ d = r.searcher.deadline config r.count
  latest : ∀ key r, IsLatest config key l.computed r →
    l.searcher.remembered? key = some (r.count, r.searcher.deadline config r.count) ∨
      l.searcher.remembered? key = none ∧ r.ending config ≤ l.searcher.now

namespace Ledger.InStep

variable {config : Config} {first : Int} {l : Ledger} {t : Searcher}

/-- A searcher who remembers nothing is in step with an empty account. -/
theorem start {s : Searcher} (h : s.HasEmptyCache) : InStep config s.now ⟨s, []⟩ where
  began := Int.le_refl _
  times := by simp
  counts := by simp
  remembered key n d hsome := by simp [h.remembered?_eq_none key] at hsome
  latest key r hlatest := by cases hlatest

/-- The account stays in step while the same is remembered and time goes on. -/
theorem pass (h : l.InStep config first) (hnow : l.searcher.now ≤ t.now)
    (hsame : ∀ key, t.remembered? key = l.searcher.remembered? key) :
    InStep config first ⟨t, l.computed⟩ where
  began := Int.le_trans h.began hnow
  times r hr := ⟨(h.times r hr).1, Int.le_trans (h.times r hr).2 hnow⟩
  counts := h.counts
  remembered key n d hsome := h.remembered key n d (hsame key ▸ hsome)
  latest key r hlatest := by
    rcases h.latest key r hlatest with hthere | ⟨hgone, hover⟩
    · exact Or.inl ((hsame key).trans hthere)
    · exact Or.inr ⟨(hsame key).trans hgone, Int.le_trans hover hnow⟩

/-- A count of the account expires exactly when its time is over. -/
theorem hasExpired_deadline (h : l.InStep config first)
    (hexact : config.ExactBetween first l.searcher.now) {r : Computed} (hr : r ∈ l.computed) :
    hasExpired l.searcher.time (r.searcher.deadline config r.count) =
      decide (r.ending config ≤ l.searcher.now) :=
  hexact _ _ _ (h.times r hr).1 (h.times r hr).2 (Int.le_refl _)

/-- The account stays in step while at most counts are forgotten that have expired. -/
theorem glance (h : l.InStep config first) (hexact : config.ExactBetween first l.searcher.now)
    (hglanced : l.searcher.Glanced t) : InStep config first ⟨t, l.computed⟩ where
  began := hglanced.now ▸ h.began
  times r hr := ⟨(h.times r hr).1, hglanced.now ▸ (h.times r hr).2⟩
  counts := h.counts
  remembered key n d hsome := by
    rcases hglanced.remembered key with hsame | ⟨hgone, -⟩
    · exact h.remembered key n d (hsame ▸ hsome)
    · simp [hgone] at hsome
  latest key r hlatest := by
    dsimp only
    rw [hglanced.now]
    rcases h.latest key r hlatest with hthere | hover
    · rcases hglanced.remembered key with hsame | ⟨hgone, old, hold, hexpired⟩
      · exact Or.inl (hsame.trans hthere)
      -- What was forgotten is this count, so its time is over.
      · obtain rfl := Option.some.inj (hthere.symm.trans hold)
        rw [h.hasExpired_deadline hexact hlatest.mem] at hexpired
        exact Or.inr ⟨hgone, of_decide_eq_true hexpired⟩
    · refine Or.inr ⟨?_, hover.2⟩
      rcases hglanced.remembered key with hsame | ⟨hgone, -⟩
      · exact hsame.trans hover.1
      · exact hgone

variable {x : Computed}

/-- The account stays in step when a count is entered that is not noted. -/
theorem enter (h : l.InStep config first) (hnow : x.searcher.now = l.searcher.now)
    (hcount : x.searcher.IsCount config x.viewer x.query x.count) (hnot : ¬ x.noted) :
    InStep config first ⟨l.searcher, x :: l.computed⟩ where
  began := h.began
  times r hr := by
    rcases List.mem_cons.1 hr with rfl | hr
    · exact ⟨hnow ▸ h.began, Int.le_of_eq hnow⟩
    · exact h.times r hr
  counts := List.forall_mem_cons.2 ⟨hcount, h.counts⟩
  remembered key n d hsome := by
    obtain ⟨r, hlatest, hr⟩ := h.remembered key n d hsome
    exact ⟨r, (isLatest_cons_of_not_notedUnder fun hx => hnot hx.1).2 hlatest, hr⟩
  latest key r hlatest :=
    h.latest key r ((isLatest_cons_of_not_notedUnder fun hx => hnot hx.1).1 hlatest)

/-- The account stays in step when a count is entered and noted. -/
theorem enterNoted (h : l.InStep config first) (hnow : x.searcher.now = l.searcher.now)
    (hcount : x.searcher.IsCount config x.viewer x.query x.count) {key : String}
    (hnoted : x.NotedUnder config key) (hafter : t.now = l.searcher.now)
    (hput : ∀ other, t.remembered? other = if other = key then
      some (x.count, x.searcher.deadline config x.count) else l.searcher.remembered? other) :
    InStep config first ⟨t, x :: l.computed⟩ where
  began := hafter ▸ h.began
  times r hr := by
    dsimp only
    rw [hafter]
    rcases List.mem_cons.1 hr with rfl | hr
    · exact ⟨hnow ▸ h.began, Int.le_of_eq hnow⟩
    · exact h.times r hr
  counts := List.forall_mem_cons.2 ⟨hcount, h.counts⟩
  remembered other n d hsome := by
    dsimp only at hsome
    rw [hput] at hsome
    split at hsome
    next heq =>
      subst heq
      obtain ⟨rfl, rfl⟩ := Prod.mk.inj (Option.some.inj hsome)
      exact ⟨x, .here hnoted, rfl, rfl⟩
    next hne =>
      obtain ⟨r, hlatest, hr⟩ := h.remembered other n d hsome
      exact ⟨r, .later (fun hx => hne (Except.ok.inj (hx.2.symm.trans hnoted.2))) hlatest, hr⟩
  latest other r hlatest := by
    dsimp only
    rw [hput, hafter]
    by_cases heq : other = key
    · subst heq
      obtain rfl := (isLatest_cons_of_notedUnder hnoted).1 hlatest
      exact Or.inl (if_pos rfl)
    · have hother : ¬ x.NotedUnder config other := fun hx =>
        heq (Except.ok.inj (hx.2.symm.trans hnoted.2))
      rw [if_neg heq]
      exact h.latest other r ((isLatest_cons_of_not_notedUnder hother).1 hlatest)

/-- A call that can end in some way leaves the account in step. -/
theorem of_ending (h : l.InStep config first) (hexact : config.ExactBetween first l.searcher.now)
    {reading writing : Access} {viewer : Viewer} {query : String}
    {answered : Except Failure (Int × Source)}
    (hends : Ending reading writing config viewer query l.searcher answered t) :
    InStep config first ⟨t, l.enter writing config viewer query answered⟩ := by
  cases hends with
  | failed _ hglanced => exact h.glance hexact hglanced
  | fixed => exact h
  | tag _ hglanced => exact h.glance hexact hglanced
  | remembered _ _ _ hglanced => exact h.glance hexact hglanced
  | fallBack _ _ _ hglanced => exact h.glance hexact hglanced
  | @counted n key t u hkey _ hcount hglanced hafter =>
    have hu := h.glance hexact hglanced
    have hnoted : u.IsNoted writing config n ↔ l.searcher.IsNoted writing config n :=
      and_congr_right fun _ => hglanced.canNote n (config.cacheTtl n)
    have hdeadline : u.deadline config n = l.searcher.deadline config n := by
      rw [deadline, deadline, time_eq, time_eq, hglanced.now]
    by_cases hyes : l.searcher.IsNoted writing config n
    · refine hu.enterNoted hglanced.now.symm hcount ⟨hyes, hkey⟩ hafter.now fun other => ?_
      rw [hafter.remembered (hnoted.2 hyes), hdeadline]
    · have hexact' : config.ExactBetween first u.now := hglanced.now ▸ hexact
      exact (hu.glance hexact' (hafter.glanced fun hu => hyes (hnoted.1 hu))).enter
        (hafter.now.trans hglanced.now).symm hcount hyes

end Ledger.InStep

/-! ## Runs -/

/-- How many seconds pass in an event. -/
def Event.seconds : Event → Nat
  | .advance seconds => seconds
  | _ => 0

/-- How many seconds pass in a run. -/
def elapsed (events : List Event) : Nat :=
  (events.map Event.seconds).sum

/-- The seconds of an event are added to those of the events after it. -/
theorem elapsed_cons (event : Event) (rest : List Event) :
    elapsed (event :: rest) = event.seconds + elapsed rest := rfl

namespace Ledger

variable {config : Config} {first : Int} {l : Ledger}

/-- Time passes in no call. -/
theorem now_of_ending {s t : Searcher} {reading writing : Access} {viewer : Viewer} {query : String}
    {answered : Except Failure (Int × Source)}
    (hends : Ending reading writing config viewer query s answered t) : t.now = s.now := by
  cases hends with
  | failed _ hglanced => exact hglanced.now
  | fixed => rfl
  | tag _ hglanced => exact hglanced.now
  | remembered _ _ _ hglanced => exact hglanced.now
  | counted _ _ _ hglanced hafter => exact hafter.now.trans hglanced.now
  | fallBack _ _ _ hglanced => exact hglanced.now

/-- Time passes as the event says. -/
theorem now_after (config : Config) (l : Ledger) (event : Event) :
    (l.after config event).searcher.now = l.searcher.now + event.seconds := by
  cases event with
  | call reading writing viewer query =>
    exact (now_of_ending (ending_countThrough reading writing config viewer query l.searcher)).trans
      (Int.add_zero _).symm
  | change f => exact (Int.add_zero _).symm
  | advance seconds =>
    change l.searcher.store.clock.wall + seconds - l.searcher.store.clock.ahead -
      l.searcher.counts.origin = l.searcher.store.clock.wall - l.searcher.store.clock.ahead -
        l.searcher.counts.origin + seconds
    omega

/-- Time passes as the events of a run say. -/
theorem now_run (config : Config) (l : Ledger) (events : List Event) :
    (l.run config events).searcher.now = l.searcher.now + elapsed events := by
  induction events generalizing l with
  | nil => exact (Int.add_zero _).symm
  | cons event rest ih =>
    have hrest := ih (l.after config event)
    rw [now_after] at hrest
    rw [run, List.foldl_cons, ← run, hrest, elapsed_cons]
    omega

/-- Whatever happens leaves the account in step. -/
theorem InStep.after (h : l.InStep config first) (hexact : config.ExactBetween first l.searcher.now)
    (event : Event) : (l.after config event).InStep config first := by
  cases event with
  | call reading writing viewer query =>
    exact h.of_ending hexact (ending_countThrough reading writing config viewer query l.searcher)
  | change f => exact h.pass (Int.le_refl _) fun _ => rfl
  | advance seconds =>
    refine h.pass ?_ fun _ => rfl
    have hnow := now_after config l (.advance seconds)
    change l.searcher.now ≤ (l.after config (.advance seconds)).searcher.now
    omega

/-- The account is in step after any run. -/
theorem InStep.run (h : l.InStep config first) (events : List Event)
    (hexact : config.ExactBetween first (l.searcher.now + elapsed events)) :
    (l.run config events).InStep config first := by
  induction events generalizing l with
  | nil => exact h
  | cons event rest ih =>
    have hnow := now_after config l event
    have helapsed := elapsed_cons event rest
    have hexact' : config.ExactBetween first l.searcher.now := fun time now count htime hle hend =>
      hexact time now count htime hle (by omega)
    exact ih (h.after hexact' event) fun time now count htime hle hend =>
      hexact time now count htime hle (by omega)

end Ledger

/-- What a call for a count can answer, by the account of the counts that were made before. -/
structure AnswersFrom (config : Config) (l : Ledger) (reading writing : Access) (viewer : Viewer)
    (query : String) (answered : Except Failure (Int × Source)) : Prop where
  /-- With accesses that work, this is what counting through the cache gives. -/
  asked : reading = .works → writing = .works →
    ((fastCount config viewer query).runOn l.searcher).1 = answered.map (·.1)
  /-- A call fails only if it would fail without any remembered counts. -/
  failed : ∀ e, answered = .error e → ((countAfresh config viewer query).runOn l.searcher).1 = .error e
  /-- The fixed number is that of the board. -/
  fixed : ∀ n, answered = .ok (n, .fixed) ∨ answered = .ok (n, .fallBack) →
    config.blankSearchFastCount = some n
  /-- The post count is that of the tag now. -/
  tag : ∀ n, answered = .ok (n, .tag) → l.searcher.IsTagCount config viewer query n
  /-- A new count is what the query selects now. -/
  counted : ∀ n, answered = .ok (n, .counted) → l.searcher.IsCount config viewer query n
  /-- A remembered count is one of the account with the same key, whose time is not over. -/
  remembered : ∀ n, answered = .ok (n, .remembered) → ∃ r ∈ l.computed,
    r.count = n ∧ r.searcher.IsCount config r.viewer r.query n ∧
      (∃ key, cacheKey config viewer query = .ok key ∧ cacheKey config r.viewer r.query = .ok key) ∧
      r.searcher.now ≤ l.searcher.now ∧ l.searcher.now - r.searcher.now < config.cacheTtl n
  /-- The latest count that was noted under the key, whatever its value, is answered by a look that
  works until its time is over. -/
  latest : reading = .works → l.searcher.CanLook → ∀ key r, cacheKey config viewer query = .ok key →
    IsLatest config key l.computed r → l.searcher.now - r.searcher.now < config.cacheTtl r.count →
      ∀ n source, answered = .ok (n, source) →
        source = .fixed ∨ source = .tag ∨ n = r.count ∧ source = .remembered

/-- With an account that is in step, a call answers from it. -/
theorem Ledger.InStep.answersFrom {config : Config} {first : Int} {l : Ledger}
    (h : l.InStep config first) (hexact : config.ExactBetween first l.searcher.now)
    (reading writing : Access) (viewer : Viewer) (query : String) :
    AnswersFrom config l reading writing viewer query
      ((countThrough reading writing config viewer query).runOn l.searcher).1 := by
  have hasked : reading = .works → writing = .works →
      ((fastCount config viewer query).runOn l.searcher).1 =
        ((countThrough reading writing config viewer query).runOn l.searcher).1.map (·.1) := by
    rintro rfl rfl
    rw [fastCount_eq_map_countThrough, fst_runOn_map]
  have hends := ending_countThrough reading writing config viewer query l.searcher
  generalize (countThrough reading writing config viewer query).runOn l.searcher = ended
    at hasked hends ⊢
  obtain ⟨answered, t⟩ := ended
  refine ⟨hasked, ?_, ?_, ?_, ?_, ?_, ?_⟩
  · rintro e rfl
    cases hends with
    | failed hafresh _ => exact hafresh
  · rintro n (rfl | rfl)
    · cases hends with
      | fixed hblank => exact hblank
    · cases hends with
      | fallBack _ _ hblank _ => exact hblank
  · rintro n rfl
    cases hends with
    | tag htag _ => exact htag
  · rintro n rfl
    cases hends with
    | counted _ _ hcount _ _ => exact hcount
  · rintro n rfl
    cases hends with
    | @remembered _ d key _ hkey hfound hlasting _ =>
      obtain ⟨r, hlatest, rfl, rfl⟩ := h.remembered key n d hfound
      rw [h.hasExpired_deadline hexact hlatest.mem] at hlasting
      have hover := of_decide_eq_false hlasting
      rw [Computed.ending] at hover
      exact ⟨r, hlatest.mem, rfl, h.counts r hlatest.mem, ⟨key, hkey, hlatest.notedUnder.2⟩,
        (h.times r hlatest.mem).2, by omega⟩
  · intro hworks hlook key r hkey hlatest hnotOver
    have hlasting : ¬ r.ending config ≤ l.searcher.now := by
      rw [Computed.ending]
      omega
    have hthere := (h.latest key r hlatest).resolve_right fun hover => hlasting hover.2
    -- A look that works has not missed a count whose time is not over.
    have hnotMissed : ∀ key', cacheKey config viewer query = .ok key' →
        ¬ l.searcher.Missed reading key' := by
      intro key' hkey' hmissed
      obtain rfl := Except.ok.inj (hkey.symm.trans hkey')
      have hexpired := hmissed hworks hlook _ hthere
      rw [h.hasExpired_deadline hexact hlatest.mem] at hexpired
      exact hlasting (of_decide_eq_true hexpired)
    rintro n source rfl
    cases hends with
    | fixed => exact Or.inl rfl
    | tag => exact Or.inr (Or.inl rfl)
    | remembered hkey' hfound =>
      obtain rfl := Except.ok.inj (hkey.symm.trans hkey')
      obtain ⟨rfl, -⟩ := Prod.mk.inj (Option.some.inj (hthere.symm.trans hfound))
      exact Or.inr (Or.inr ⟨rfl, rfl⟩)
    | counted hkey' hmissed => exact absurd hmissed (hnotMissed _ hkey')
    | fallBack hkey' hmissed => exact absurd hmissed (hnotMissed _ hkey')

/-- A searcher who remembers no counts at first answers each call after any run from the account of the
run, whatever changes, however much time passes, and whichever accesses fail; and nothing but counts of
the account is ever remembered. -/
theorem answersFrom_run (config : Config) (s : Searcher) (events : List Event)
    (hempty : s.HasEmptyCache) (hexact : config.ExactBetween s.now (s.now + elapsed events)) :
    let l := Ledger.run config ⟨s, []⟩ events
    (∀ key n d, l.searcher.remembered? key = some (n, d) →
      ∃ r, IsLatest config key l.computed r ∧ r.count = n ∧
        r.searcher.IsCount config r.viewer r.query n) ∧
    ∀ reading writing viewer query, AnswersFrom config l reading writing viewer query
      ((countThrough reading writing config viewer query).runOn l.searcher).1 := by
  intro l
  have hstep : l.InStep config s.now := (Ledger.InStep.start hempty).run events hexact
  have hnow : l.searcher.now = s.now + elapsed events := Ledger.now_run config ⟨s, []⟩ events
  refine ⟨fun key n d hsome => ?_, hstep.answersFrom (hnow ▸ hexact)⟩
  obtain ⟨r, hlatest, rfl, -⟩ := hstep.remembered key n d hsome
  exact ⟨r, hlatest, rfl, hstep.counts r hlatest.mem⟩

/-- A run in which birds are asked for, of which there are none, and almost as much time passes as this
is remembered for, while a post is added that shows one. -/
def birdEvents : List Event :=
  [.call .works .works .anonymous "bird cat*", .advance 179, .change fun s =>
    { s with contents.taggings := s.contents.taggings ++ [⟨2, 3⟩]
             contents.tags := s.contents.tags ++ [⟨3, "bird", 0, 1, .null, .null⟩] }]

/-- The answers after this run are those from its account: that there are no birds is still remembered,
and where the look fails the new one is counted. -/
theorem answersFrom_run_bird :
    let s := Search.searcherOf Search.petContents
    let l := Ledger.run .standard ⟨s, []⟩ birdEvents
    s.HasEmptyCache ∧ Config.standard.ExactBetween s.now (s.now + elapsed birdEvents) ∧
    ((∀ key n d, l.searcher.remembered? key = some (n, d) →
      ∃ r, IsLatest .standard key l.computed r ∧ r.count = n ∧
        r.searcher.IsCount .standard r.viewer r.query n) ∧
    ∀ reading writing viewer query, AnswersFrom .standard l reading writing viewer query
      ((countThrough reading writing .standard viewer query).runOn l.searcher).1) ∧
    ((countThrough .works .works .standard .anonymous "bird cat*").runOn l.searcher).1 =
      .ok (0, .remembered) ∧
    ((countThrough .fails .works .standard .anonymous "bird cat*").runOn l.searcher).1 =
      .ok (1, .counted) := by
  intro s l
  have hexact : Config.standard.ExactBetween s.now (s.now + elapsed birdEvents) :=
    Config.exactBetween_of_bounds (by decide) (by decide) (by decide) (by decide)
  exact ⟨rfl, hexact, answersFrom_run .standard s birdEvents rfl hexact, by decide +kernel,
    by decide +kernel⟩

end Searcher

end Imageboard
