import Imageboard.Proofs.Query.Binding
import Imageboard.Query.Quantity

/-!
# Reading ranges

The parts of a range are read by a reader of one quantity, which fails with a cause of its own. Each
cause that the readers have makes the whole range malformed, so no other failure leaves the reading of a
range; and the values of a range that is read are values that its reader has read.
-/

namespace Imageboard.Query

open Text

variable {α β : Type} {r : Except Failure α} {e : Failure}

/-- Whether a computation fails only with causes that make a range malformed. -/
def FailsToRead (r : Except Failure α) : Prop :=
  ∀ e, r = .error e → isReadFailure e = true

/-- A value is no failure. -/
theorem failsToRead_ok (a : α) : FailsToRead (.ok a) := by
  intro e he
  cases he

/-- A cause that makes a range malformed is a failure to read. -/
theorem failsToRead_error (h : isReadFailure e = true) :
    FailsToRead (.error e : Except Failure α) := by
  intro e' he
  obtain rfl := Except.error.inj he
  exact h

/-- What is made of a result fails as the computation of the result. -/
theorem FailsToRead.map (h : FailsToRead r) (f : α → β) : FailsToRead (r.map f) := by
  cases r with
  | error e => exact failsToRead_error (h e rfl)
  | ok a => exact failsToRead_ok _

/-- A computation that fails on a list fails on one of the items. -/
theorem exists_of_mapM_eq_error {ε : Type} {f : α → Except ε β} {xs : List α} {e : ε}
    (h : xs.mapM f = .error e) : ∃ x ∈ xs, f x = .error e := by
  induction xs with
  | nil => cases h
  | cons x rest ih =>
    rw [List.mapM_cons] at h
    cases hx : f x with
    | error e' =>
      rw [hx] at h
      obtain rfl := Except.error.inj h
      exact ⟨x, List.mem_cons_self, hx⟩
    | ok y =>
      cases hrest : rest.mapM f with
      | error e' =>
        rw [hx, hrest] at h
        obtain rfl := Except.error.inj h
        obtain ⟨z, hz, hfz⟩ := ih hrest
        exact ⟨z, List.mem_cons_of_mem _ hz, hfz⟩
      | ok ys =>
        rw [hx, hrest] at h
        cases h

/-! ## Readers -/

/-- The whole part of a number fails only for numbers that are not finite. -/
theorem failsToRead_wholePart (x : Binary64) : FailsToRead (wholePart x) := by
  unfold wholePart
  split
  · exact failsToRead_ok _
  · refine failsToRead_error ?_
    split <;> rfl

/-- Whole numbers fail to be read as numbers. -/
theorem failsToRead_readIntegerValue (s : String) : FailsToRead (readIntegerValue s) := by
  unfold readIntegerValue
  split
  · exact failsToRead_ok _
  · exact failsToRead_error rfl

/-- Floating point numbers fail to be read as numbers. -/
theorem failsToRead_readRealValue (s : String) : FailsToRead (readRealValue s) := by
  unfold readRealValue
  split
  · exact failsToRead_ok _
  · exact failsToRead_error rfl

/-- Durations fail to be read as such, or are too large for a number. -/
theorem failsToRead_readDuration (s : String) : FailsToRead (readDuration s) := by
  unfold readDuration
  repeat' split
  · exact failsToRead_error rfl
  · exact failsToRead_error rfl
  · exact failsToRead_wholePart _

/-- File sizes fail to be read as such, or are too large for a number. -/
theorem failsToRead_readFilesize (s : String) : FailsToRead (readFilesize s) := by
  unfold readFilesize
  repeat' split
  · exact failsToRead_error rfl
  · exact failsToRead_error rfl
  · exact failsToRead_wholePart _

/-- Ratios fail to be read as numbers, or have height zero. -/
theorem failsToRead_readRatio (s : String) : FailsToRead (readRatio s) := by
  unfold readRatio
  dsimp only
  repeat' split
  all_goals first
    | exact failsToRead_ok _
    | exact failsToRead_error rfl

/-- Days fail to be read as such. -/
theorem failsToRead_readDate (s : String) : FailsToRead (readDate s) := by
  unfold readDate
  dsimp only
  split
  · exact failsToRead_ok _
  · exact failsToRead_error rfl

/-- The whole part of a number is a whole number. -/
theorem exists_integer_of_wholePart {x : Binary64} {v : Value} (h : wholePart x = .ok v) :
    ∃ n, v = .integer n := by
  unfold wholePart at h
  split at h
  next n _ => exact ⟨n, (Except.ok.inj h).symm⟩
  next => cases h

/-- A duration is a number of seconds. -/
theorem exists_integer_of_readDuration {s : String} {v : Value} (h : readDuration s = .ok v) :
    ∃ n, v = .integer n := by
  unfold readDuration at h
  repeat' split at h
  · cases h
  · cases h
  · exact exists_integer_of_wholePart h

/-! ## Ranges -/

variable {read : List Char → Except Failure Value} {cs : List Char}

/-- A range fails to be read as its parts do. -/
theorem failsToRead_readRangeChars (hread : ∀ part, FailsToRead (read part)) (cs : List Char) :
    FailsToRead (readRangeChars read cs) := by
  unfold readRangeChars
  split
  · split
    · exact failsToRead_error rfl
    · exact (hread _).map _
    · exact (hread _).map _
    · split
      next e he => exact failsToRead_error (hread _ e he)
      next => exact (hread _).map _
  · split
    · exact (hread _).map _
    · exact (hread _).map _
    · exact (hread _).map _
    · exact (hread _).map _
    · split
      · split
        · exact failsToRead_error rfl
        · refine FailsToRead.map (fun e he => ?_) _
          obtain ⟨part, -, hpart⟩ := exists_of_mapM_eq_error he
          exact hread part e hpart
      · exact (hread _).map _

/-- The values of a range are read from its parts. -/
theorem exists_read_of_readRangeChars {range : Range} (h : readRangeChars read cs = .ok range) :
    ∀ v ∈ range.values, ∃ part, read part = .ok v := by
  have hone {part : List Char} {f : Value → Range} (hf : ∀ v, (f v).values = [v])
      (h : (read part).map f = .ok range) : ∀ v ∈ range.values, ∃ part, read part = .ok v := by
    obtain ⟨v, hv, rfl⟩ := exists_of_map_eq_ok h
    rw [hf]
    intro w hw
    obtain rfl := List.mem_singleton.1 hw
    exact ⟨part, hv⟩
  unfold readRangeChars at h
  split at h
  · split at h
    · cases h
    · exact hone (fun _ => rfl) h
    · exact hone (fun _ => rfl) h
    · split at h
      · cases h
      next lower hlower =>
        obtain ⟨upper, hupper, rfl⟩ := exists_of_map_eq_ok h
        intro v hv
        rcases List.mem_cons.1 hv with rfl | hv
        · exact ⟨_, hlower⟩
        · obtain rfl := List.mem_singleton.1 hv
          exact ⟨_, hupper⟩
  · split at h
    · exact hone (fun _ => rfl) h
    · exact hone (fun _ => rfl) h
    · exact hone (fun _ => rfl) h
    · exact hone (fun _ => rfl) h
    · split at h
      · split at h
        · cases h
        · obtain ⟨vs, hvs, rfl⟩ := exists_of_map_eq_ok h
          intro v hv
          obtain ⟨part, -, hpart⟩ := exists_of_mem_mapM hvs hv
          exact ⟨part, hpart⟩
      · exact hone (fun _ => rfl) h

/-- Where a range of a quantity is not read, it is malformed. -/
theorem eq_of_readRange_eq_error {read : Reader} (hread : ∀ s, FailsToRead (read s))
    {kind value : String} (h : readRange read kind value = .error e) :
    e = .malformedRange value kind := by
  unfold readRange at h
  split at h
  · exact (Except.error.inj h).symm
  · split at h
    · cases h
    next e' he' =>
      have hfails := failsToRead_readRangeChars (fun part => hread (String.ofList part)) _ e' he'
      rw [if_pos hfails] at h
      exact (Except.error.inj h).symm

/-- The values of a range of a quantity are values of that quantity. -/
theorem exists_read_of_readRange {read : Reader} {kind value : String} {range : Range}
    (h : readRange read kind value = .ok range) : ∀ v ∈ range.values, ∃ s, read s = .ok v := by
  unfold readRange at h
  split at h
  · cases h
  · split at h
    next range' hrange =>
      obtain rfl := Except.ok.inj h
      intro v hv
      obtain ⟨part, hpart⟩ := exists_read_of_readRangeChars hrange v hv
      exact ⟨_, hpart⟩
    next => cases h

end Imageboard.Query
