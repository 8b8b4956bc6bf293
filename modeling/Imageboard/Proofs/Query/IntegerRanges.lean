import Imageboard.Proofs.Number.Numerals
import Imageboard.Proofs.Query.IdLists
import Imageboard.Proofs.Search.Ages
import Mathlib.Data.Int.Order.Basic
import Mathlib.Data.Set.Basic

/-!
# Ranges of integers in writing

None of the characters of an integer is a sign of any form of a range, so the text of a range of integers
falls into the form of the range again, but for a list of one integer, which is written like the integer
alone. Either way the set of integers stays the same.
-/

namespace Imageboard.Query

open Text

/-- The set of integers that a range of integers stands for. -/
def Range.integers : Range → Set Int
  | .eq (.integer m) => {m}
  | .lt (.integer m) => {n | n < m}
  | .lte (.integer m) => {n | n ≤ m}
  | .gt (.integer m) => {n | m < n}
  | .gte (.integer m) => {n | m ≤ n}
  | .between (.integer l) (.integer u) => {n | l ≤ n ∧ n ≤ u}
  | .among vs => {n | .integer n ∈ vs}
  | _ => ∅

/-- Text around two dots is split there if there is no dot before them. -/
theorem splitDots?_append {as : List Char} (h : '.' ∉ as) (bs : List Char) :
    splitDots? (as ++ '.' :: '.' :: bs) = some (as, bs) := by
  induction as with
  | nil => rfl
  | cons a as ih =>
    obtain ⟨ha, has⟩ := not_or.1 (List.mem_cons.not.1 h)
    rw [List.cons_append, splitDots?, ih has, Option.map_some]
    exact fun _ hdot => absurd hdot.symm ha

/-- Text is split at its first comma. -/
theorem splitCommas_append {part : List Char} (h : ',' ∉ part) (rest : List Char) :
    splitCommas part = [part] ∧ splitCommas (part ++ ',' :: rest) = part :: splitCommas rest := by
  induction part with
  | nil => exact ⟨rfl, rfl⟩
  | cons c part ih =>
    obtain ⟨hc, hpart⟩ := not_or.1 (List.mem_cons.not.1 h)
    obtain ⟨hone, hmore⟩ := ih hpart
    constructor
    · rw [splitCommas, hone]
      exact fun heq => hc heq.symm
    · rw [List.cons_append, splitCommas, hmore]
      exact fun heq => hc heq.symm

/-- Parts that are joined by commas are the parts of the text. -/
theorem splitCommas_intercalate {parts : List (List Char)} (hnil : parts ≠ [])
    (hparts : ∀ part ∈ parts, ',' ∉ part) : splitCommas ([','].intercalate parts) = parts := by
  induction parts with
  | nil => exact absurd rfl hnil
  | cons part rest ih =>
    obtain ⟨hpart, hrest⟩ := List.forall_mem_cons.1 hparts
    cases rest with
    | nil => rw [List.intercalate_singleton, (splitCommas_append hpart []).1]
    | cons next more =>
      rw [List.intercalate_cons_cons, List.append_assoc, List.singleton_append,
        (splitCommas_append hpart _).2, ih (List.cons_ne_nil _ _) hrest]

/-- What stands in joined text stands in one of the parts or is what joins them. -/
theorem mem_of_mem_intercalate {α : Type} {x y : α} {ls : List (List α)} (h : y ∈ [x].intercalate ls) :
    y = x ∨ ∃ l ∈ ls, y ∈ l := by
  induction ls with
  | nil => exact absurd h (by simp)
  | cons l rest ih =>
    cases rest with
    | nil => exact Or.inr ⟨l, List.mem_cons_self, by rwa [List.intercalate_singleton] at h⟩
    | cons m more =>
      rw [List.intercalate_cons_cons, List.append_assoc, List.singleton_append, List.mem_append,
        List.mem_cons] at h
      rcases h with h | rfl | h
      · exact Or.inr ⟨l, List.mem_cons_self, h⟩
      · exact Or.inl rfl
      · exact (ih h).imp_right fun ⟨part, hpart, hy⟩ => ⟨part, List.mem_cons_of_mem _ hpart, hy⟩

/-- Text without any sign of a form is read as a single value. -/
theorem readRangeChars_eq_map_eq {read : List Char → Except Failure Value} {text : List Char}
    (hsigns : ∀ c ∈ ['.', '<', '>', ','], c ∉ text) : readRangeChars read text = (read text).map .eq := by
  have hdots : splitDots? text = none :=
    Option.eq_none_iff_forall_ne_some.2 fun _ hparts =>
      hsigns '.' (by decide) (mem_of_splitDots? hparts)
  unfold readRangeChars
  rw [hdots]
  dsimp only
  split
  · exact (hsigns '>' (by decide) List.mem_cons_self).elim
  · exact (hsigns '<' (by decide) List.mem_cons_self).elim
  · exact (hsigns '>' (by decide) List.mem_cons_self).elim
  · exact (hsigns '<' (by decide) List.mem_cons_self).elim
  · exact if_neg (hsigns ',' (by decide))

/-- Text without two dots in a row that begins with a sign of comparison is read as a bound; the sign goes
up to an equality sign. -/
theorem readRangeChars_bound (read : List Char → Except Failure Value) {text : List Char}
    (hdot : '.' ∉ text) :
    readRangeChars read ('<' :: '=' :: text) = (read text).map .lte ∧
      readRangeChars read ('>' :: '=' :: text) = (read text).map .gte ∧
      ((∀ rest, text ≠ '=' :: rest) →
        readRangeChars read ('<' :: text) = (read text).map .lt ∧
          readRangeChars read ('>' :: text) = (read text).map .gt) := by
  have hdots {cs : List Char} (hcs : '.' ∉ cs) : splitDots? cs = none :=
    Option.eq_none_iff_forall_ne_some.2 fun _ hparts => hcs (mem_of_splitDots? hparts)
  refine ⟨?_, ?_, fun hequal => ⟨?_, ?_⟩⟩
  · rw [readRangeChars, hdots (by simp [hdot])]
  · rw [readRangeChars, hdots (by simp [hdot])]
  · rw [readRangeChars, hdots (by simp [hdot])]
    exact hequal
  · rw [readRangeChars, hdots (by simp [hdot])]
    exact hequal

section Describing

variable {n m : Int}

/-- Whether the values of a range are integers with no more digits than are read. -/
def Range.IsReadable (r : Range) : Prop :=
  ∀ v ∈ r.values, ∃ n, v = .integer n ∧ Imageboard.IsReadable n

/-- The text of an integer is read as the integer. -/
theorem readIntegerValue_toString (hn : Imageboard.IsReadable n) :
    readIntegerValue (String.ofList (toString n).toList) = .ok (.integer n) := by
  rw [String.ofList_toList]
  exact readIntegerValue_eq_ok_iff.2 ⟨n, readInteger?_toString hn, rfl⟩

/-- No sign of a form of a range is a character of an integer. -/
theorem not_isNumeral_of_sign {c : Char} (hc : c ∈ ['.', '<', '>', ',', '=']) : ¬ IsNumeral c := by
  intro hnumeral
  have hplace := hnumeral.toNat
  simp only [List.mem_cons, List.not_mem_nil, or_false] at hc
  rcases hc with rfl | rfl | rfl | rfl | rfl <;> revert hplace <;> decide

/-- There is no sign of a form of a range in the text of an integer. -/
theorem not_mem_toString {c : Char} (hc : c ∈ ['.', '<', '>', ',', '=']) (n : Int) :
    c ∉ (toString n).toList :=
  fun hmem => not_isNumeral_of_sign hc (isNumeral_of_mem_toString hmem)

/-- The text of an integer is its own trimmed form. -/
theorem trim_toString (n : Int) : trim (toString n).toList = (toString n).toList :=
  trim_eq_self fun _ hc => (isNumeral_of_mem_toString hc).not_isBlank

/-- The texts of integers, joined by commas, list the integers if there are two or more. -/
theorem isIdList_intercalate {ids : List Int} (hids : ∀ n ∈ ids, Imageboard.IsReadable n)
    (hmore : 2 ≤ ids.length) :
    IsIdList ([','].intercalate (ids.map fun n => (toString n).toList)) ids := by
  have hitems : commaItems ([','].intercalate (ids.map fun n => (toString n).toList)) =
      ids.map fun n => (toString n).toList := by
    have hnil : (ids.map fun n => (toString n).toList) ≠ [] := by
      intro h
      rw [List.map_eq_nil_iff.1 h] at hmore
      exact absurd hmore (by decide)
    have hcommas : ∀ part ∈ ids.map fun n => (toString n).toList, ',' ∉ part := by
      rintro part hpart
      obtain ⟨n, -, rfl⟩ := List.mem_map.1 hpart
      exact not_mem_toString (by decide) n
    rw [commaItems, splitCommas_intercalate hnil hcommas, List.map_map]
    have htrim : (trim ∘ fun n : Int => (toString n).toList) = fun n => (toString n).toList :=
      funext trim_toString
    rw [htrim, List.filter_eq_self]
    intro item hitem
    obtain ⟨n, -, rfl⟩ := List.mem_map.1 hitem
    simpa using toList_toString_ne_nil n
  constructor
  · obtain ⟨m, n, rest, rfl⟩ : ∃ m n rest, ids = m :: n :: rest := by
      match ids, hmore with
      | m :: n :: rest, _ => exact ⟨m, n, rest, rfl⟩
    rw [List.map_cons, List.map_cons, List.intercalate_cons_cons]
    simp
  · rintro rfl
    exact absurd hmore (by decide)
  · rw [hitems, List.map_map]
    refine List.map_congr_left fun n hn => ?_
    rw [Function.comp_apply, String.ofList_toList, readInteger?_toString (hids n hn)]

/-- The text of an integer is read as the integer alone. -/
theorem readRangeChars_toString (hn : Imageboard.IsReadable n) :
    readRangeChars (fun part => readIntegerValue (String.ofList part)) (toString n).toList =
      .ok (.eq (.integer n)) := by
  have hsigns : ∀ c ∈ ['.', '<', '>', ','], c ∉ (toString n).toList := fun c hc =>
    not_mem_toString (List.mem_append_left ['='] hc) n
  rw [readRangeChars_eq_map_eq hsigns, readIntegerValue_toString hn, Except.map]

/-- The text of a bound is read as the bound. -/
theorem readRangeChars_describe_bound {form : Value → Range}
    (hform : form ∈ [Range.lt, Range.lte, Range.gt, Range.gte]) (hn : Imageboard.IsReadable n) :
    readRangeChars (fun part => readIntegerValue (String.ofList part))
      (form (.integer n)).describe.toList = .ok (form (.integer n)) := by
  have hread (form : Value → Range) :
      (readIntegerValue (String.ofList (toString n).toList)).map form = .ok (form (.integer n)) := by
    rw [readIntegerValue_toString hn, Except.map]
  have hequal (rest : List Char) : (toString n).toList ≠ '=' :: rest := by
    intro heq
    exact not_mem_toString (by decide) n (heq ▸ List.mem_cons_self : '=' ∈ (toString n).toList)
  obtain ⟨hlte, hgte, hstrict⟩ := readRangeChars_bound
    (fun part => readIntegerValue (String.ofList part)) (not_mem_toString (by decide) n)
  obtain ⟨hlt, hgt⟩ := hstrict hequal
  simp only [List.mem_cons, List.not_mem_nil, or_false] at hform
  rcases hform with rfl | rfl | rfl | rfl <;> rw [Range.describe, String.toList_append]
  · exact hlt.trans (hread _)
  · exact hlte.trans (hread _)
  · exact hgt.trans (hread _)
  · exact hgte.trans (hread _)

/-- The text of an interval is read as the interval. -/
theorem readRangeChars_describe_between (hm : Imageboard.IsReadable m) (hn : Imageboard.IsReadable n) :
    readRangeChars (fun part => readIntegerValue (String.ofList part))
      (Range.between (.integer m) (.integer n)).describe.toList =
        .ok (.between (.integer m) (.integer n)) := by
  have hsplit : splitDots? (Range.between (.integer m) (.integer n)).describe.toList =
      some ((toString m).toList, (toString n).toList) := by
    rw [Range.describe, String.toList_append, String.toList_append, List.append_assoc]
    exact splitDots?_append (not_mem_toString (by decide) m) _
  unfold readRangeChars
  rw [hsplit]
  dsimp only
  rw [trim_toString, trim_toString]
  split
  next hempty _ => exact absurd hempty (toList_toString_ne_nil m)
  next hempty _ => exact absurd hempty (toList_toString_ne_nil m)
  next hempty _ => exact absurd hempty (toList_toString_ne_nil n)
  next =>
    rw [readIntegerValue_toString hm, readIntegerValue_toString hn]
    rfl

/-- The text of a list is read as the list, or as its integer if it is one alone. -/
theorem exists_readRangeChars_describe_among {ids : List Int}
    (hids : ∀ n ∈ ids, Imageboard.IsReadable n) (hnil : ids ≠ []) :
    ∃ r, readRangeChars (fun part => readIntegerValue (String.ofList part))
        (Range.among (ids.map .integer)).describe.toList = .ok r ∧
      r.integers = (Range.among (ids.map .integer)).integers := by
  have htext : (Range.among (ids.map .integer)).describe.toList =
      [','].intercalate (ids.map fun n => (toString n).toList) := by
    rw [Range.describe, String.toList_intercalate, List.map_map, List.map_map]
    rfl
  rw [htext]
  match ids, hids with
  | [], _ => exact absurd rfl hnil
  | [n], hids =>
    refine ⟨.eq (.integer n), ?_, Set.ext fun m => ?_⟩
    · rw [List.map_singleton, List.intercalate_singleton,
        readRangeChars_toString (hids n List.mem_cons_self)]
    · exact (by simp : m = n ↔ Value.integer m ∈ [Value.integer n])
  | m :: n :: rest, hids =>
    exact ⟨_, readRangeChars_eq_among_iff.2
      ⟨m :: n :: rest, rfl, isIdList_intercalate hids (by simp)⟩, rfl⟩

/-- The text of a range of integers is read as a range with the same integers. -/
theorem Range.IsReadable.exists_readRangeChars {r : Range} (hr : r.IsReadable) (hnil : r ≠ .among []) :
    ∃ r', readRangeChars (fun part => readIntegerValue (String.ofList part)) r.describe.toList = .ok r' ∧
      r'.integers = r.integers := by
  cases r with
  | eq v =>
    obtain ⟨n, rfl, hn⟩ := hr v List.mem_cons_self
    exact ⟨_, readRangeChars_toString hn, rfl⟩
  | lt v | lte v | gt v | gte v =>
    obtain ⟨n, rfl, hn⟩ := hr v List.mem_cons_self
    exact ⟨_, readRangeChars_describe_bound (by simp) hn, rfl⟩
  | between lower upper =>
    obtain ⟨m, rfl, hm⟩ := hr lower List.mem_cons_self
    obtain ⟨n, rfl, hn⟩ := hr upper (List.mem_cons_of_mem _ List.mem_cons_self)
    exact ⟨_, readRangeChars_describe_between hm hn, rfl⟩
  | among vs =>
    obtain ⟨ids, rfl, hids⟩ : ∃ ids : List Int, vs = ids.map .integer ∧
        ∀ n ∈ ids, Imageboard.IsReadable n := by
      clear hnil
      induction vs with
      | nil => exact ⟨[], rfl, nofun⟩
      | cons v vs ih =>
        obtain ⟨n, rfl, hn⟩ := hr v List.mem_cons_self
        obtain ⟨ids, rfl, hids⟩ := ih fun w hw => hr w (List.mem_cons_of_mem _ hw)
        exact ⟨n :: ids, rfl, List.forall_mem_cons.2 ⟨hn, hids⟩⟩
    refine exists_readRangeChars_describe_among hids ?_
    rintro rfl
    exact hnil rfl

/-- The text of a range of integers has no blanks. -/
theorem Range.IsReadable.not_isBlank {r : Range} (hr : r.IsReadable) :
    ∀ c ∈ r.describe.toList, isBlank c = false := by
  have hvalue {v : Value} (hv : v ∈ r.values) {c : Char} (hc : c ∈ v.describe.toList) :
      isBlank c = false := by
    obtain ⟨n, rfl, -⟩ := hr v hv
    exact (isNumeral_of_mem_toString hc).not_isBlank
  have happend {s t : String} (hs : ∀ c ∈ s.toList, isBlank c = false)
      (ht : ∀ c ∈ t.toList, isBlank c = false) : ∀ c ∈ (s ++ t).toList, isBlank c = false := by
    intro c hc
    rw [String.toList_append] at hc
    exact (List.mem_append.1 hc).elim (hs c) (ht c)
  have hsign {s : String} (hs : s.toList.any isBlank = false) :
      ∀ c ∈ s.toList, isBlank c = false := by
    simpa only [List.any_eq_false, Bool.not_eq_true] using hs
  cases r with
  | eq v => exact fun c => hvalue List.mem_cons_self
  | lt v | lte v | gt v | gte v =>
    exact happend (hsign (by decide)) fun c => hvalue List.mem_cons_self
  | between lower upper =>
    exact happend (happend (fun c => hvalue List.mem_cons_self) (hsign (by decide)))
      fun c => hvalue (List.mem_cons_of_mem _ List.mem_cons_self)
  | among vs =>
    intro c hc
    rw [describe, String.toList_intercalate, List.map_map] at hc
    rcases mem_of_mem_intercalate hc with rfl | ⟨part, hpart, hc⟩
    · decide
    · obtain ⟨v, hv, rfl⟩ := List.mem_map.1 hpart
      exact hvalue hv hc

end Describing

/-- A range of integers that is read has readable integers, and is no list of none. -/
theorem isReadable_of_readRange {kind value : String} {r : Range}
    (h : readRange readIntegerValue kind value = .ok r) : r.IsReadable ∧ r ≠ .among [] := by
  refine ⟨fun v hv => ?_, ?_⟩
  · obtain ⟨s, hs⟩ := exists_read_of_readRange h v hv
    obtain ⟨n, hn, rfl⟩ := readIntegerValue_eq_ok_iff.1 hs
    exact ⟨n, rfl, isReadable_of_readInteger? hn⟩
  · rintro rfl
    unfold readRange at h
    split at h
    · cases h
    · split at h
      next range hrange =>
        obtain rfl := Except.ok.inj h
        obtain ⟨ids, hids, hlist⟩ := readRangeChars_eq_among_iff.1 hrange
        exact hlist.nonempty (List.map_eq_nil_iff.1 hids.symm)
      next => cases h

/-- An integer compares with one that is bound as the two do. -/
theorem comparesAs_integer (n m : Int) :
    let bound := (Value.integer m).bound
    Search.comparesAs [.eq] (.integer n) bound = some (decide (n = m)) ∧
      Search.comparesAs [.lt] (.integer n) bound = some (decide (n < m)) ∧
      Search.comparesAs [.lt, .eq] (.integer n) bound = some (decide (n ≤ m)) ∧
      Search.comparesAs [.gt] (.integer n) bound = some (decide (m < n)) ∧
      Search.comparesAs [.gt, .eq] (.integer n) bound = some (decide (m ≤ n)) := by
  obtain ⟨hlt, hle, hgt, hge⟩ := Search.contains_compare n m
  have hequal : [Ordering.eq].contains (compare n m) = decide (n = m) := by simp
  exact ⟨congrArg some hequal, congrArg some hlt, congrArg some hle, congrArg some hgt,
    congrArg some hge⟩

/-- The integers of a range are those that a search finds in it. -/
theorem Range.IsReadable.inRange_iff {r : Range} (hr : r.IsReadable) (n : Int) :
    Search.inRange (.integer n) r = some true ↔ n ∈ r.integers := by
  have hknown (p : Prop) [Decidable p] : some (decide p) = some true ↔ p := by simp
  cases r with
  | eq v =>
    obtain ⟨m, rfl, -⟩ := hr v List.mem_cons_self
    rw [Search.inRange, (comparesAs_integer n m).1]
    exact hknown (n = m)
  | lt v =>
    obtain ⟨m, rfl, -⟩ := hr v List.mem_cons_self
    rw [Search.inRange, (comparesAs_integer n m).2.1]
    exact hknown (n < m)
  | lte v =>
    obtain ⟨m, rfl, -⟩ := hr v List.mem_cons_self
    rw [Search.inRange, (comparesAs_integer n m).2.2.1]
    exact hknown (n ≤ m)
  | gt v =>
    obtain ⟨m, rfl, -⟩ := hr v List.mem_cons_self
    rw [Search.inRange, (comparesAs_integer n m).2.2.2.1]
    exact hknown (m < n)
  | gte v =>
    obtain ⟨m, rfl, -⟩ := hr v List.mem_cons_self
    rw [Search.inRange, (comparesAs_integer n m).2.2.2.2]
    exact hknown (m ≤ n)
  | between lower upper =>
    obtain ⟨l, rfl, -⟩ := hr lower List.mem_cons_self
    obtain ⟨u, rfl, -⟩ := hr upper (List.mem_cons_of_mem _ List.mem_cons_self)
    rw [Search.inRange, (comparesAs_integer n l).2.2.2.2, (comparesAs_integer n u).2.2.1,
      Search.Truth.and_some, ← Bool.decide_and]
    exact hknown (l ≤ n ∧ n ≤ u)
  | among vs =>
    have hany : Search.isAmong (.integer n) (vs.map Value.bound) =
        Search.Truth.any (vs.map fun v => Search.comparesAs [.eq] (.integer n) v.bound) := by
      cases vs with
      | nil => rfl
      | cons v vs => exact congrArg Search.Truth.any (List.map_map ..)
    have hholds (t : Search.Truth) : t = some true ↔ t.holds = true := beq_iff_eq.symm
    rw [Search.inRange, hany, hholds, Search.Truth.holds_any, List.any_map, List.any_eq_true]
    constructor
    · rintro ⟨v, hv, heq⟩
      obtain ⟨m, rfl, -⟩ := hr v hv
      rw [Function.comp_apply, ← hholds, (comparesAs_integer n m).1, hknown] at heq
      exact heq ▸ hv
    · intro hn
      refine ⟨_, hn, ?_⟩
      rw [Function.comp_apply, ← hholds, (comparesAs_integer n n).1, hknown]

/-- A range of integers that is read stands for the integers that a search finds in it, and its text is
read again, as a range that stands for the same integers. -/
theorem exists_readRange_describe {kind value : String} {r : Range}
    (h : readRange readIntegerValue kind value = .ok r) :
    (∀ n, Search.inRange (.integer n) r = some true ↔ n ∈ r.integers) ∧
      ∃ r', readRange readIntegerValue kind r.describe = .ok r' ∧ r'.integers = r.integers := by
  obtain ⟨hr, hnil⟩ := isReadable_of_readRange h
  obtain ⟨r', hread, hsame⟩ := hr.exists_readRangeChars hnil
  refine ⟨hr.inRange_iff, r', ?_, hsame⟩
  unfold readRange
  rw [trim_eq_self hr.not_isBlank]
  split
  next hempty =>
    have hnone : readIntegerValue (String.ofList []) = .error .malformedNumber := by decide +kernel
    rw [hempty, readRangeChars_eq_map_eq (by simp), hnone] at hread
    cases hread
  next => rw [hread]

/-- A list of one integer, in digits of another script and with zeros in front, is written as the integer
alone, and an interval that is turned around is written turned around and has no integers. -/
theorem exists_readRange_describe_seven :
    readRange readIntegerValue "integer" " ٠٧ ," = .ok (.among [.integer 7]) ∧
      (∃ r', readRange readIntegerValue "integer" "7" = .ok r' ∧ r'.integers = {7}) ∧
      readRange readIntegerValue "integer" "+1_0.. -5" = .ok (.between (.integer 10) (.integer (-5))) ∧
      ∃ r', readRange readIntegerValue "integer" "10..-5" = .ok r' ∧ r'.integers = ∅ := by
  have hseven : readRange readIntegerValue "integer" " ٠٧ ," = .ok (.among [.integer 7]) := by
    decide +kernel
  have hturned : readRange readIntegerValue "integer" "+1_0.. -5" =
      .ok (.between (.integer 10) (.integer (-5))) := by
    decide +kernel
  obtain ⟨r, hr, hsame⟩ := (exists_readRange_describe hseven).2
  obtain ⟨s, hs, hnone⟩ := (exists_readRange_describe hturned).2
  refine ⟨hseven, ⟨r, hr, hsame.trans ?_⟩, hturned, s, hs, hnone.trans ?_⟩
  · exact Set.ext fun m => (by simp : Value.integer m ∈ [Value.integer 7] ↔ m = 7)
  · exact Set.eq_empty_iff_forall_notMem.2 fun n ⟨hlower, hupper⟩ =>
      absurd (hlower.trans hupper) (by decide)

end Imageboard.Query
