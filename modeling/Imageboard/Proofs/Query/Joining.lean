import Imageboard.Proofs.Query.Tokenizing

/-!
# Queries put together

Blanks between two queries keep their tokens apart. The scanner is between tokens once it has passed
a blank outside of a quoted value, and what it reads then does not depend on where it stands, but for
the place that it gives to a quote. So the tokens of the second query follow those of the first, and a
quote that stands open in the second query stands as far further on as the second query does. A quote
that stands open in the first query stays open until there is another one.
-/

namespace Imageboard.Query

open Text

/-! ## Reading further on -/

/-- The state of the scanner when the text stands further on by some characters. -/
def Scan.movedBy (n : Nat) : Scan → Scan
  | .quote chars start value => .quote chars (n + start) value
  | state => state

variable {cs gap more : List Char}

/-- Further on, a character is read the same way. -/
theorem scanChar_movedBy (n position : Nat) (c : Char) (state : Scan) :
    scanChar (n + position) c (state.movedBy n) =
      ((scanChar position c state).1.movedBy n, (scanChar position c state).2) := by
  have hinside (chars : List Char) : scanInToken chars (n + position) c =
      ((scanInToken chars position c).1.movedBy n, (scanInToken chars position c).2) := by
    unfold scanInToken
    repeat' split
    all_goals rfl
  cases state with
  | between => exact hinside []
  | token chars => exact hinside chars
  | quote chars start value =>
    simp only [Scan.movedBy, scanChar]
    split <;> rfl

/-- Further on, text is read the same way. -/
theorem scan_movedBy (n position : Nat) (state : Scan) (cs : List Char) :
    scan (n + position) (state.movedBy n) cs =
      ((scan position state cs).1.movedBy n, (scan position state cs).2) := by
  induction cs generalizing position state with
  | nil => rfl
  | cons c rest ih => simp only [scan, scanChar_movedBy, Nat.add_assoc, ih]

/-- Further on, a quote that stands open at the end stands further on as well. -/
theorem finish_movedBy (n : Nat) (state : Scan) :
    finish (state.movedBy n) = (finish state).mapError (n + ·) := by
  cases state <;> rfl

/-! ## Blanks -/

/-- Between tokens blanks are passed over. -/
theorem scan_between_of_isBlank (position : Nat) (hblank : ∀ c ∈ gap, isBlank c = true) :
    scan position .between gap = (.between, []) := by
  induction gap generalizing position with
  | nil => rfl
  | cons c rest ih =>
    have hchar : scanChar position c .between = (.between, []) := by
      rw [scanChar, scanInToken, if_pos (hblank c List.mem_cons_self)]
      rfl
    rw [scan, hchar]
    dsimp only
    rw [ih (position + 1) fun d hd => hblank d (List.mem_cons_of_mem _ hd)]
    rfl

/-- Outside of a quoted value blanks complete the tokens that the end of the text would complete. -/
theorem scan_of_isBlank {state : Scan} {tokens : List (List Char)} (position : Nat)
    (hsound : state.Sound) (hfinish : finish state = .ok tokens) (hnil : gap ≠ [])
    (hblank : ∀ c ∈ gap, isBlank c = true) : scan position state gap = (.between, tokens) := by
  obtain ⟨c, rest, rfl⟩ := List.exists_cons_of_ne_nil hnil
  have hrest : scan (position + 1) .between rest = (.between, []) :=
    scan_between_of_isBlank _ fun d hd => hblank d (List.mem_cons_of_mem _ hd)
  have hc : isBlank c = true := hblank c List.mem_cons_self
  have hchar : scanChar position c state = (.between, tokens) := by
    cases state with
    | between =>
      rw [scanChar, scanInToken, if_pos hc, ← Except.ok.inj hfinish]
      rfl
    | token chars =>
      rw [scanChar, scanInToken, if_pos hc, ← Except.ok.inj hfinish,
        if_neg (by simpa using IsToken.ne_nil hsound)]
    | quote => cases hfinish
  rw [scan, hchar]
  dsimp only
  rw [hrest, List.append_nil]

/-! ## Two texts -/

/-- After blanks a text is read as on its own: its tokens follow those before the blanks, and a quote
that stands open in it stands where it is in the whole. -/
theorem tokenizeChars_append {tokens : List (List Char)} (more : List Char)
    (h : tokenizeChars cs = .ok tokens) (hnil : gap ≠ []) (hblank : ∀ c ∈ gap, isBlank c = true) :
    tokenizeChars (cs ++ gap ++ more) =
      ((tokenizeChars more).map (tokens ++ ·)).mapError (cs.length + gap.length + ·) := by
  obtain ⟨hsound, -⟩ := sound_scan_query cs
  unfold tokenizeChars at h ⊢
  rw [scan_append, scan_append]
  dsimp only at h ⊢
  generalize scan 0 .between cs = read at h hsound
  obtain ⟨state, done⟩ := read
  cases hfinish : finish state with
  | error position => simp [hfinish, Except.map] at h
  | ok last =>
    have htokens : done ++ last = tokens := by simpa [hfinish, Except.map] using h
    -- The blanks bring the scanner between tokens, where it is at the start of the second text.
    rw [scan_of_isBlank _ hsound hfinish hnil hblank]
    have hmore : scan (cs.length + gap.length) .between more =
        ((scan 0 .between more).1.movedBy (cs.length + gap.length), (scan 0 .between more).2) :=
      scan_movedBy (cs.length + gap.length) 0 .between more
    simp only [Nat.zero_add, List.length_append, hmore, finish_movedBy, htokens]
    cases finish (scan 0 .between more).1 with
    | error position => rfl
    | ok rest => exact congrArg Except.ok (List.append_assoc tokens _ rest)

/-- Inside a quoted value nothing but a quote ends it. -/
theorem scan_quote {position start : Nat} {chars value : List Char} (hquote : '"' ∉ cs) :
    scan position (.quote chars start value) cs = (.quote chars start (value ++ cs), []) := by
  induction cs generalizing position value with
  | nil => simp [scan]
  | cons c rest ih =>
    simp only [List.mem_cons, not_or] at hquote
    rw [scan, scanChar, if_neg (Ne.symm hquote.1)]
    simp only [List.nil_append]
    rw [ih hquote.2, List.append_assoc]
    rfl

/-- A quote that stands open stays open until there is another one. -/
theorem tokenizeChars_append_of_error {position : Nat} (h : tokenizeChars cs = .error position)
    (hquote : '"' ∉ more) : tokenizeChars (cs ++ more) = .error position := by
  unfold tokenizeChars at h ⊢
  rw [scan_append]
  dsimp only at h ⊢
  cases hstate : (scan 0 .between cs).1 with
  | quote chars start value =>
    rw [hstate] at h
    rw [scan_quote hquote]
    exact h
  | _ => simp [hstate, finish, Except.map] at h

/-! ## Queries -/

/-- After blanks a query is read as on its own: its tokens follow those before the blanks, and a quote
that stands open in it stands where it is in the whole. -/
theorem tokenize_append {query gap : String} {tokens : List String} (more : String)
    (h : tokenize query = .ok tokens) (hnil : gap ≠ "")
    (hblank : ∀ c ∈ gap.toList, isBlank c = true) :
    (∀ others, tokenize more = .ok others →
      tokenize (query ++ gap ++ more) = .ok (tokens ++ others)) ∧
    ∀ e, tokenize more = .error e → ∃ position, e = .unterminatedQuote more position ∧
      tokenize (query ++ gap ++ more) = .error (.unterminatedQuote (query ++ gap ++ more)
        (query.length + gap.length + position)) := by
  unfold tokenize at h ⊢
  cases hread : tokenizeChars query.toList with
  | error position => simp [hread] at h
  | ok read =>
    have htokens : read.map String.ofList = tokens := by simpa [hread] using h
    have happend := tokenizeChars_append more.toList hread
      (fun h => hnil (String.toList_eq_nil_iff.1 h)) hblank
    rw [String.toList_append, String.toList_append, happend]
    cases tokenizeChars more.toList with
    | ok others =>
      refine ⟨fun _ h => ?_, fun _ h => (by cases h)⟩
      rw [← Except.ok.inj h, ← htokens]
      exact congrArg Except.ok List.map_append
    | error position =>
      refine ⟨fun _ h => (by cases h), fun e h => ⟨position, (Except.error.inj h).symm, ?_⟩⟩
      rw [← String.length_toList, ← String.length_toList]
      rfl

/-- After a query whose quote stands open, text without quotes leaves it open where it is. -/
theorem tokenize_append_of_error {query : String} {e : Failure} (more : String)
    (h : tokenize query = .error e) (hquote : '"' ∉ more.toList) :
    ∃ position, e = .unterminatedQuote query position ∧
      tokenize (query ++ more) = .error (.unterminatedQuote (query ++ more) position) := by
  unfold tokenize at h ⊢
  cases hread : tokenizeChars query.toList with
  | ok read => simp [hread] at h
  | error position =>
    refine ⟨position, by simpa [hread, eq_comm] using h, ?_⟩
    rw [String.toList_append, tokenizeChars_append_of_error hread hquote]

end Imageboard.Query
