import Imageboard.Calendar.Timestamp
import Imageboard.Proofs.Calendar.Ordinals
import Imageboard.Proofs.Calendar.Padding
import Mathlib.Order.Compare
import Mathlib.Data.String.Basic

/-!
# The order of time stamps

A time stamp from the years 1000 to 9999 is a row of numerals of fixed widths, from the year to the
second. So two time stamps are in the same order as texts and as moments, over the ends of months, of leap
years and of days. Columns of times keep them as the texts that they are.
-/

namespace Imageboard.Moment

open Day

/-- The seconds from the start of the year one to a moment, in universal time. -/
def instant (m : Moment) : Int :=
  m.wall - m.ahead

/-- Whether a number of seconds leads into the years 1000 to 9999. -/
def InFourDigitYears (seconds : Int) : Prop :=
  (daysBeforeYear 1000 : Int) * 86400 ≤ seconds ∧ seconds < secondsInCalendar

instance (seconds : Int) : Decidable (InFourDigitYears seconds) :=
  inferInstanceAs (Decidable (_ ∧ _))

/-- The widths of the fields of a time stamp, each with the mark behind it. -/
def stampLayout : List (Nat × List Char) :=
  [(4, ['-']), (2, ['-']), (2, [' ']), (2, [':']), (2, [':']), (2, [])]

/-- The fields of the time stamp of a number of seconds. -/
def stampFields (seconds : Nat) : List Nat :=
  (ofOrdinal (seconds / 86400)).fields ++
    [seconds % 86400 / 3600, seconds % 86400 % 3600 / 60, seconds % 86400 % 60]

variable {m n : Nat}

/-- The year of a time in the years 1000 to 9999 has four digits. -/
theorem year_of_inFourDigitYears (h : InFourDigitYears n) :
    1000 ≤ (ofOrdinal (n / 86400)).year ∧ (ofOrdinal (n / 86400)).year < 10000 := by
  have hbounds : daysBeforeYear 1000 ≤ n / 86400 ∧ n / 86400 < daysBeforeYear 10000 := by
    have hends : daysBeforeYear 1000 = 364877 ∧ daysBeforeYear 10000 = 3652059 := by decide
    obtain ⟨hlower, hupper⟩ := h
    rw [hends.1] at hlower
    rw [secondsInCalendar] at hupper
    omega
  exact ⟨daysBeforeYear_le_iff.1 hbounds.1,
    Nat.lt_of_not_le fun hyear => Nat.not_le_of_lt hbounds.2 (daysBeforeYear_le_iff.2 hyear)⟩

/-- Each field of a time stamp fits its width. -/
theorem forall₂_stampFields (h : InFourDigitYears n) :
    List.Forall₂ (fun column field => field < 10 ^ column.1) stampLayout (stampFields n) := by
  obtain ⟨-, hyear⟩ := year_of_inFourDigitYears h
  obtain ⟨hmonth, hday⟩ := ofOrdinal_lt_hundred (n / 86400)
  simp only [stampLayout, stampFields, fields, List.cons_append, List.nil_append, List.forall₂_cons,
    List.forall₂_nil_left_iff, and_true]
  exact ⟨hyear, hmonth, hday, by omega, by omega, by omega⟩

/-- A time stamp is the row of its fields. -/
theorem toList_stampText (h : InFourDigitYears n) :
    (stampText n).toList = row stampLayout (stampFields n) := by
  obtain ⟨hyear, hyear'⟩ := year_of_inFourDigitYears h
  obtain ⟨hmonth, hday⟩ := ofOrdinal_lt_hundred (n / 86400)
  have htwo {k : Nat} (hk : k < 100) : (padded 2 k).toList = lastDigits 2 k :=
    toList_padded (by decide) hk
  have hfour : (padded 0 (ofOrdinal (n / 86400)).year).toList =
      lastDigits 4 (ofOrdinal (n / 86400)).year := toList_padded_zero hyear hyear'
  simp only [stampText, Day.text, String.toList_append, hfour, htwo hmonth, htwo hday,
    htwo (k := n % 86400 / 3600) (by omega), htwo (k := n % 86400 % 3600 / 60) (by omega),
    htwo (k := n % 86400 % 60) (by omega), List.append_assoc]
  rfl

/-- The fields of a later time stamp are later. -/
theorem stampFields_lt (h : m < n) : stampFields m < stampFields n := by
  rcases Nat.lt_or_eq_of_le (Nat.div_le_div_right (c := 86400) h.le) with hday | hday
  · exact append_lt_append_of_lt rfl (fields_ofOrdinal_lt hday)
  · rw [stampFields, stampFields, hday]
    refine List.append_left_lt ?_
    simp only [List.cons_lt_cons_iff]
    omega

/-- Time stamps are ordered as texts as their moments are. -/
theorem stampText_lt (h : m < n) (hm : InFourDigitYears m) (hn : InFourDigitYears n) :
    stampText m < stampText n := by
  rw [String.lt_iff_toList_lt, toList_stampText hm, toList_stampText hn]
  exact row_lt rfl (forall₂_stampFields hn) (stampFields_lt h)

/-- A number of seconds that leads into the years 1000 to 9999 is not negative. -/
theorem InFourDigitYears.natCast_toNat {a : Int} (h : InFourDigitYears a) :
    ((a.toNat : Nat) : Int) = a :=
  Int.toNat_of_nonneg (le_trans (by decide) h.1)

/-- Time stamps compare as their moments do. -/
theorem compare_stampText {a b : Int} (ha : InFourDigitYears a) (hb : InFourDigitYears b) :
    compare (stampText a.toNat) (stampText b.toNat) = compare a b := by
  have hlt {a b : Int} (ha : InFourDigitYears a) (hb : InFourDigitYears b) (h : a < b) :
      stampText a.toNat < stampText b.toNat := by
    refine stampText_lt ?_ (ha.natCast_toNat.symm ▸ ha) (hb.natCast_toNat.symm ▸ hb)
    have := ha.natCast_toNat
    have := hb.natCast_toNat
    omega
  rcases lt_trichotomy a b with h | rfl | h
  · rw [compare_lt_iff_lt.2 h]
    exact compare_lt_iff_lt.2 (hlt ha hb h)
  · rw [compare_eq_iff_eq.2 (rfl : a = a)]
    exact compare_eq_iff_eq.2 rfl
  · rw [compare_gt_iff_gt.2 h]
    exact compare_gt_iff_gt.2 (hlt hb ha h)

/-! ## Time stamps in columns of times -/

/-- A digit is no blank. -/
theorem not_isAsciiBlank_of_isDigit {c : Char} (hc : c.isDigit) : isAsciiBlank c = false := by
  have hbounds : 48 ≤ c.toNat ∧ c.toNat ≤ 57 := by
    simp only [Char.isDigit, ge_iff_le, Bool.and_eq_true, decide_eq_true_eq,
      UInt32.le_iff_toNat_le] at hc
    exact hc
  have hspace : c ≠ ' ' := by
    rintro rfl
    exact absurd hbounds.1 (by decide)
  have hcontrol : ¬ c.toNat ≤ 13 := by omega
  simp [isAsciiBlank, hspace, hcontrol]

/-- There are no blanks before a text that begins with digits. -/
theorem dropWhile_isAsciiBlank_of_digits {digits : List Char} (hne : digits ≠ [])
    (hdigits : ∀ c ∈ digits, c.isDigit) (rest : List Char) :
    (digits ++ rest).dropWhile isAsciiBlank = digits ++ rest := by
  cases digits with
  | nil => exact absurd rfl hne
  | cons c digits =>
    have hc := not_isAsciiBlank_of_isDigit (hdigits c List.mem_cons_self)
    exact List.dropWhile_cons_of_neg (by simp [hc])

/-- A text that begins with digits has no sign. -/
theorem splitSign_of_digits {digits : List Char} (hne : digits ≠ [])
    (hdigits : ∀ c ∈ digits, c.isDigit) (rest : List Char) :
    splitSign (digits ++ rest) = (false, digits ++ rest) := by
  cases digits with
  | nil => exact absurd rfl hne
  | cons c digits =>
    have hc := hdigits c List.mem_cons_self
    rw [List.cons_append]
    unfold splitSign
    split
    next heq => exact absurd hc (by rw [(List.cons.inj heq).1]; decide)
    next heq => exact absurd hc (by rw [(List.cons.inj heq).1]; decide)
    next => rfl

/-- A number with a hyphen behind it does not read as a number. -/
theorem readUnsignedReal?_of_hyphen {digits : List Char} (hdigits : ∀ c ∈ digits, c.isDigit)
    (negative : Bool) (rest : List Char) :
    readUnsignedReal? negative (digits ++ '-' :: rest) = none := by
  have hwhole : (digits ++ '-' :: rest).takeWhile Char.isDigit = digits := by
    rw [List.takeWhile_append_of_pos hdigits, List.takeWhile_cons_of_neg (by decide), List.append_nil]
  have hafter : (digits ++ '-' :: rest).dropWhile Char.isDigit = '-' :: rest := by
    rw [List.dropWhile_append_of_pos hdigits, List.dropWhile_cons_of_neg (by decide)]
  unfold readUnsignedReal?
  rw [hwhole, hafter]
  dsimp only
  split
  next heq => cases heq
  next =>
    dsimp only
    rw [if_neg (by decide : ¬ ('-' = 'e' ∨ '-' = 'E')), ite_self]

/-- A column of times keeps a text that begins with digits and a hyphen and ends in digits. -/
theorem ofTimeText_of_hyphen {text : String} {digits rest final : List Char}
    (htext : text.toList = digits ++ '-' :: (rest ++ final)) (hne : digits ≠ [])
    (hdigits : ∀ c ∈ digits, c.isDigit) (hfinal : final ≠ []) (hfinals : ∀ c ∈ final, c.isDigit) :
    Value.ofTimeText text = .text text := by
  have hreverse : (digits ++ '-' :: (rest ++ final)).reverse =
      final.reverse ++ (digits ++ '-' :: rest).reverse := by
    simp
  have hunblanked : (((digits ++ '-' :: (rest ++ final)).dropWhile isAsciiBlank).reverse.dropWhile
      isAsciiBlank).reverse = digits ++ '-' :: (rest ++ final) := by
    rw [dropWhile_isAsciiBlank_of_digits hne hdigits, hreverse, dropWhile_isAsciiBlank_of_digits
      (by simpa using hfinal) (fun c hc => hfinals c (List.mem_reverse.1 hc)), ← hreverse,
      List.reverse_reverse]
  rw [Value.ofTimeText, htext, hunblanked, splitSign_of_digits hne hdigits]
  dsimp only
  rw [readUnsignedReal?_of_hyphen hdigits]

/-- A time stamp is kept in a column of times as the text that it is. -/
theorem inTimeColumn_stampText (h : InFourDigitYears n) :
    (Value.text (stampText n)).inTimeColumn = .text (stampText n) := by
  have htext : (stampText n).toList = lastDigits 4 (ofOrdinal (n / 86400)).year ++ '-' ::
      ((lastDigits 2 (ofOrdinal (n / 86400)).month ++ '-' ::
        (lastDigits 2 (ofOrdinal (n / 86400)).day ++ ' ' ::
          (lastDigits 2 (n % 86400 / 3600) ++ ':' ::
            (lastDigits 2 (n % 86400 % 3600 / 60) ++ [':'])))) ++ lastDigits 2 (n % 86400 % 60)) := by
    rw [toList_stampText h]
    simp only [row, stampLayout, stampFields, fields, List.cons_append, List.nil_append,
      List.append_nil, List.append_assoc]
  have hne (width k : Nat) : lastDigits (width + 1) k ≠ [] := by
    simp [lastDigits]
  rw [Value.inTimeColumn]
  exact ofTimeText_of_hyphen htext (hne 3 _) (fun _ => isDigit_of_mem_lastDigits) (hne 1 _)
    fun _ => isDigit_of_mem_lastDigits

/-- A moment in the years 1000 to 9999 has a time stamp. -/
theorem stamp?_of_inFourDigitYears {moment : Moment} (h : InFourDigitYears moment.instant) :
    moment.stamp? = some (stampText moment.instant.toNat) := by
  have hin : inCalendar (moment.wall - moment.ahead) = true := by
    obtain ⟨hlower, hupper⟩ := h
    rw [instant] at hlower hupper
    have hstart : (0 : Int) ≤ (daysBeforeYear 1000 : Int) * 86400 := by decide
    simp only [inCalendar, Bool.and_eq_true, decide_eq_true_eq]
    omega
  exact if_pos hin

end Imageboard.Moment
