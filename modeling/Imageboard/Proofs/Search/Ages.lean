import Imageboard.Proofs.Calendar.Stamps
import Imageboard.Proofs.Query.Durations
import Imageboard.Proofs.Query.Stating
import Imageboard.Search.Condition
import Imageboard.Store.Tagging

/-!
# Searching by age

The metatag for ages asks for a range of elapsed seconds, and is written as a range of time stamps: each
bound is taken off the present moment, comparisons turn around, and the ends of an interval change places.
The stamps are compared as texts. In the years 1000 to 9999 this is the order of the moments, so the
metatag selects the posts whose elapsed seconds lie in the range that was asked for.
-/

namespace Imageboard

open Query

/-- Whether an age in seconds lies in a range of durations; a duration alone is the largest age. -/
def Query.Range.admitsAge : Range → Int → Bool
  | .eq (.integer s), age | .lte (.integer s), age => age ≤ s
  | .lt (.integer s), age => age < s
  | .gt (.integer s), age => s < age
  | .gte (.integer s), age => s ≤ age
  | .between (.integer lower) (.integer upper), age => lower ≤ age && age ≤ upper
  | _, _ => false

/-- Whether a post has the time stamp of a moment as its creation time. -/
def Post.MadeAt (p : Post) (m : Moment) : Prop :=
  ∃ stamp, m.stamp? = some stamp ∧ p.createdAt = (Value.text stamp).inTimeColumn

namespace Query

/-- No category takes over the metatag for ages. -/
theorem Registry.find?_age (cs : Categories) : (Registry.ofCategories cs).find? "age" = some .age :=
  Registry.find?_of_fixed (by decide) (by decide) cs

end Query

namespace Search

open Moment

variable {now created : Moment}

/-- The time stamp of the moment some seconds ago. -/
theorem agoStamp_of_inFourDigitYears {seconds : Nat} (hnow : inCalendar now.wall = true)
    (hahead : now.ahead.natAbs < 86400) (h : InFourDigitYears (now.instant - seconds)) :
    agoStamp now (.integer seconds) = .ok (.text (stampText (now.instant - seconds).toNat)) := by
  have hwall : ¬ ((seconds : Int) / 86400).natAbs > maxDays.toNat ∧
      inCalendar (now.wall - seconds) = true := by
    have hstart : (Day.daysBeforeYear 1000 : Int) * 86400 = 31525372800 := by decide
    obtain ⟨hlower, -⟩ := h
    rw [hstart, instant] at hlower
    simp only [inCalendar, Bool.and_eq_true, decide_eq_true_eq] at hnow ⊢
    rw [secondsInCalendar] at hnow ⊢
    rw [maxDays]
    omega
  have hinstant : (Moment.mk (now.wall - seconds) now.ahead).instant = now.instant - seconds := by
    simp only [instant]
    omega
  have hstamp : (Moment.mk (now.wall - seconds) now.ahead).stamp? =
      some (stampText (now.instant - seconds).toNat) := by
    rw [stamp?_of_inFourDigitYears (hinstant.symm ▸ h), hinstant]
  rw [agoStamp, earlier?, if_neg hwall.1, if_pos hwall.2, Option.bind_some, hstamp]

/-- The creation time of a post compares with the time stamp of a moment as the moments do. -/
theorem comparesAs_stampText {p : Post} {seconds : Int} (hp : p.MadeAt created)
    (hcreated : InFourDigitYears created.instant) (h : InFourDigitYears seconds)
    (orderings : List Ordering) :
    comparesAs orderings p.createdAt (Value.text (stampText seconds.toNat)).bound =
      some (orderings.contains (compare created.instant seconds)) := by
  obtain ⟨stamp, hstamp, hcolumn⟩ := hp
  obtain rfl : stampText created.instant.toNat = stamp :=
    Option.some.inj ((stamp?_of_inFourDigitYears hcreated).symm.trans hstamp)
  have hkept := inTimeColumn_stampText (hcreated.natCast_toNat.symm ▸ hcreated)
  rw [hcolumn, hkept, comparesAs]
  exact congrArg (Option.map _) (congrArg some (compare_stampText hcreated h))

/-- Which comparisons hold of two numbers. -/
theorem contains_compare (x y : Int) :
    [Ordering.lt].contains (compare x y) = decide (x < y) ∧
      [Ordering.lt, .eq].contains (compare x y) = decide (x ≤ y) ∧
      [Ordering.gt].contains (compare x y) = decide (y < x) ∧
      [Ordering.gt, .eq].contains (compare x y) = decide (y ≤ x) := by
  rcases lt_trichotomy x y with h | rfl | h
  · rw [compare_lt_iff_lt.2 h]
    simp [h, h.le]
  · rw [compare_eq_iff_eq.2 (rfl : x = x)]
    simp
  · rw [compare_gt_iff_gt.2 h]
    simp [h, h.le]

/-- Whether comparing creation times with a stamp compares ages with some seconds, the other way round. -/
def TurnsAround (now : Moment) (seconds : Int) (stamp : Value) : Prop :=
  ∀ (p : Post) (created : Moment), p.MadeAt created → InFourDigitYears created.instant →
    let age := now.instant - created.instant
    comparesAs [.lt] p.createdAt stamp.bound = some (decide (seconds < age)) ∧
      comparesAs [.lt, .eq] p.createdAt stamp.bound = some (decide (seconds ≤ age)) ∧
      comparesAs [.gt] p.createdAt stamp.bound = some (decide (age < seconds)) ∧
      comparesAs [.gt, .eq] p.createdAt stamp.bound = some (decide (age ≤ seconds))

/-- The time stamp of some seconds ago turns comparisons around. -/
theorem exists_agoStamp {seconds : Nat} (hnow : inCalendar now.wall = true)
    (hahead : now.ahead.natAbs < 86400) (h : InFourDigitYears (now.instant - seconds)) :
    ∃ stamp, agoStamp now (.integer seconds) = .ok stamp ∧ TurnsAround now seconds stamp := by
  refine ⟨_, agoStamp_of_inFourDigitYears hnow hahead h, fun p created hp hcreated => ?_⟩
  obtain ⟨hlt, hle, hgt, hge⟩ := contains_compare created.instant (now.instant - seconds)
  simp only [comparesAs_stampText hp hcreated h, hlt, hle, hgt, hge, Option.some.injEq,
    decide_eq_decide]
  omega

/-- Two conditions that are known are known together. -/
theorem Truth.and_some (a b : Bool) : Truth.and (some a) (some b) = some (a && b) := by
  cases a <;> cases b <;> rfl

/-- A range of ages is turned into a range of creation times, which holds for a post exactly if the age of
the post lies in the range of ages. -/
theorem exists_ageToCreation {r : Range} (hr : ∀ v ∈ r.values, ∃ n : Nat, v = .integer n)
    (hlist : ∀ vs, r ≠ .among vs) (hnow : inCalendar now.wall = true)
    (hahead : now.ahead.natAbs < 86400)
    (hbounds : ∀ n, .integer n ∈ r.values → InFourDigitYears (now.instant - n)) (value : String) :
    ∃ creation, ageToCreation now value r = .ok creation ∧
      ∀ (p : Post) (created : Moment), p.MadeAt created → InFourDigitYears created.instant →
        inRange p.createdAt creation = some (r.admitsAge (now.instant - created.instant)) := by
  have hbound {v : Value} (hv : v ∈ r.values) : ∃ n : Nat, v = .integer n ∧
      ∃ stamp, agoStamp now v = .ok stamp ∧ TurnsAround now n stamp := by
    obtain ⟨n, rfl⟩ := hr v hv
    exact ⟨n, rfl, exists_agoStamp hnow hahead (hbounds n hv)⟩
  cases r with
  | among vs => exact absurd rfl (hlist vs)
  | lt v =>
    obtain ⟨n, rfl, stamp, hstamp, hturns⟩ := hbound (List.mem_singleton.2 rfl)
    exact ⟨.gt stamp, by rw [ageToCreation, hstamp, Except.map],
      fun p created hp hcreated => (hturns p created hp hcreated).2.2.1⟩
  | lte v =>
    obtain ⟨n, rfl, stamp, hstamp, hturns⟩ := hbound (List.mem_singleton.2 rfl)
    exact ⟨.gte stamp, by rw [ageToCreation, hstamp, Except.map],
      fun p created hp hcreated => (hturns p created hp hcreated).2.2.2⟩
  | eq v =>
    obtain ⟨n, rfl, stamp, hstamp, hturns⟩ := hbound (List.mem_singleton.2 rfl)
    exact ⟨.gte stamp, by rw [ageToCreation, hstamp, Except.map],
      fun p created hp hcreated => (hturns p created hp hcreated).2.2.2⟩
  | gt v =>
    obtain ⟨n, rfl, stamp, hstamp, hturns⟩ := hbound (List.mem_singleton.2 rfl)
    exact ⟨.lt stamp, by rw [ageToCreation, hstamp, Except.map],
      fun p created hp hcreated => (hturns p created hp hcreated).1⟩
  | gte v =>
    obtain ⟨n, rfl, stamp, hstamp, hturns⟩ := hbound (List.mem_singleton.2 rfl)
    exact ⟨.lte stamp, by rw [ageToCreation, hstamp, Except.map],
      fun p created hp hcreated => (hturns p created hp hcreated).2.1⟩
  | between lower upper =>
    obtain ⟨l, rfl, last, hlast, hlower⟩ := hbound (v := lower) (by simp [Range.values])
    obtain ⟨u, rfl, first, hfirst, hupper⟩ := hbound (v := upper) (by simp [Range.values])
    refine ⟨.between first last, by simp only [ageToCreation, hfirst, hlast, Except.map],
      fun p created hp hcreated => ?_⟩
    rw [inRange, (hupper p created hp hcreated).2.2.2, (hlower p created hp hcreated).2.1,
      Truth.and_some, Bool.and_comm, Range.admitsAge]

/-- The metatag for ages selects by elapsed time: for a range of durations that is no list, at a moment
from which each duration leads back into the years 1000 to 9999, its predicate is true of a post made in
these years exactly if the seconds from the making of the post to the moment lie in the range, and false
otherwise. -/
theorem truthOf_evaluate_age {value : String} {r : Range}
    (hread : readRange readDuration "duration" value = .ok r) (hlist : ∀ vs, r ≠ .among vs)
    (hnow : inCalendar now.wall = true) (hahead : now.ahead.natAbs < 86400)
    (hbounds : ∀ n, .integer n ∈ r.values → InFourDigitYears (now.instant - n))
    (cs : Categories) (viewer : Viewer) :
    ∃ predicate, (Registry.ofCategories cs).evaluate viewer now "age" value = .ok (.select predicate) ∧
      ∀ (c : Contents) (p : Post) (created : Moment), p.MadeAt created →
        InFourDigitYears created.instant →
        truthOf c p predicate = some (r.admitsAge (now.instant - created.instant)) := by
  have hvalues : ∀ v ∈ r.values, ∃ n : Nat, v = .integer n := fun v hv => by
    obtain ⟨s, hs⟩ := exists_read_of_readRange hread v hv
    exact exists_nat_of_readDuration hs
  obtain ⟨creation, hcreation, htruth⟩ := exists_ageToCreation hvalues hlist hnow hahead hbounds value
  refine ⟨.range .createdAt creation none, ?_, fun _ => htruth⟩
  have hlower : Text.lowerString "age" = "age" := by decide
  rw [Registry.evaluate, hlower, Registry.find?_age]
  simp only [Handler.apply, hread, hcreation, Except.map]

/-- In Tokyo on the morning of the first of March 2024, a post from a day before, less one second, is less
than a day old: in universal time both are in February, which has a leap day. -/
theorem truthOf_evaluate_age_leapDay :
    let now : Moment := ⟨(Day.mk 2024 3 1).ordinal * 86400 + 30600, 32400⟩
    let created : Moment := ⟨(Day.mk 2024 2 28).ordinal * 86400 + 84601, 0⟩
    let p := PostDraft.toPost { createdAt := some (.text "2024-02-28 23:30:01") } 1 .null
    ∃ predicate,
      (Registry.ofCategories .standard).evaluate .anonymous now "age" "<1d" = .ok (.select predicate) ∧
        p.MadeAt created ∧ truthOf .empty p predicate = some true := by
  intro now created p
  have hmade : p.MadeAt created := ⟨"2024-02-28 23:30:01", by decide +kernel, by decide +kernel⟩
  have hread : readRange readDuration "duration" "<1d" = .ok (.lt (.integer 86400)) := by decide +kernel
  have hnow : inCalendar now.wall = true := by decide +kernel
  have hbounds : ∀ n, Value.integer n ∈ (Range.lt (.integer 86400)).values →
      InFourDigitYears (now.instant - n) := by
    intro n hn
    obtain rfl : n = 86400 := by simpa [Range.values] using hn
    decide +kernel
  obtain ⟨predicate, heval, htruth⟩ :=
    truthOf_evaluate_age hread nofun hnow (by decide) hbounds .standard .anonymous
  refine ⟨predicate, heval, hmade, (htruth .empty p created hmade (by decide +kernel)).trans ?_⟩
  decide +kernel

end Search

end Imageboard
