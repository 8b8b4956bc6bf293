import Imageboard.Proofs.Query.Ranging
import Imageboard.Proofs.Search.Measuring
import Imageboard.Proofs.Text.Lowering

/-!
# Queries that are refused

A query is refused for a quote that is not closed, for too many tags, or for a value that is no range of
its kind. Only two metatags fail otherwise. An age can reach back to a moment that is not in the
calendar, and the interval around a file size can reach beyond the numbers that are finite; then the
query fails with an overflow. All other queries have a plan or are refused.
-/

namespace Imageboard

/-- Whether a failure is one that a query is refused with. -/
def Failure.isRefusal : Failure → Bool
  | .unterminatedQuote .. | .malformedRange .. | .tooManyTags _ => true
  | _ => false

namespace Query

open Text

variable {viewer : Viewer} {now : Moment} {value : String} {e : Failure}

/-- Whether a computation has a result or fails as queries are refused. -/
def Answers {α : Type} (r : Except Failure α) : Prop :=
  (∃ a, r = .ok a) ∨ ∃ e, r = .error e ∧ e.isRefusal = true

/-- Whether a computation overflows in some case, and has a result or is refused in all others. -/
def AnswersUnless {α : Type} (case : Prop) (r : Except Failure α) : Prop :=
  case ∧ r = .error .overflow ∨ ¬ case ∧ Answers r

/-- What is made of a result is there, or refused, as the result is. -/
theorem AnswersUnless.map {α β : Type} {case : Prop} {r : Except Failure α}
    (h : AnswersUnless case r) (f : α → β) : AnswersUnless case (r.map f) := by
  rcases h with ⟨hcase, rfl⟩ | ⟨hnot, ⟨a, rfl⟩ | ⟨e, rfl, he⟩⟩
  · exact Or.inl ⟨hcase, rfl⟩
  · exact Or.inr ⟨hnot, Or.inl ⟨_, rfl⟩⟩
  · exact Or.inr ⟨hnot, Or.inr ⟨e, rfl, he⟩⟩

/-! ## Ages and sizes -/

/-- Whether no time stamp belongs to the moment some seconds earlier. -/
def IsOutside (now : Moment) (seconds : Int) : Prop :=
  (now.earlier? seconds).bind (·.stamp?) = none

/-- Whether an end of the interval around a size is not finite. -/
def IsUnbounded (n : Int) : Prop :=
  ((Binary64.ofInt n).mul tolerance.1).truncate? = none ∨
    ((Binary64.ofInt n).mul tolerance.2).truncate? = none

/-- A time stamp overflows where there is none. -/
theorem agoStamp_cases (now : Moment) (n : Int) :
    IsOutside now n ∧ agoStamp now (.integer n) = .error .overflow ∨
      ¬ IsOutside now n ∧ ∃ v, agoStamp now (.integer n) = .ok v := by
  unfold IsOutside agoStamp
  dsimp only
  split
  next s hs => exact Or.inr ⟨by simp [hs], _, rfl⟩
  next hs => exact Or.inl ⟨hs, rfl⟩

/-- The creation times for a range of seconds overflow if one of its ends is outside, and are there
otherwise. -/
theorem ageToCreation_cases {r : Range} (hr : ∀ v ∈ r.values, ∃ n, v = .integer n)
    (hlist : ∀ vs, r ≠ .among vs) :
    (∃ n, .integer n ∈ r.values ∧ IsOutside now n) ∧ ageToCreation now value r = .error .overflow ∨
      (¬ ∃ n, .integer n ∈ r.values ∧ IsOutside now n) ∧ ∃ s, ageToCreation now value r = .ok s := by
  have hone {v : Value} (hv : ∃ n, v = .integer n) (f : Value → Range) :
      (∃ n, .integer n ∈ [v] ∧ IsOutside now n) ∧ (agoStamp now v).map f = .error .overflow ∨
        (¬ ∃ n, .integer n ∈ [v] ∧ IsOutside now n) ∧ ∃ s, (agoStamp now v).map f = .ok s := by
    obtain ⟨n, rfl⟩ := hv
    rcases agoStamp_cases now n with ⟨hout, heq⟩ | ⟨hin, w, heq⟩
    · exact Or.inl ⟨⟨n, by simp, hout⟩, by rw [heq, Except.map]⟩
    · exact Or.inr ⟨by simpa using hin, f w, by rw [heq, Except.map]⟩
  cases r with
  | eq v => exact hone (hr v (List.mem_singleton.2 rfl)) _
  | lt v => exact hone (hr v (List.mem_singleton.2 rfl)) _
  | lte v => exact hone (hr v (List.mem_singleton.2 rfl)) _
  | gt v => exact hone (hr v (List.mem_singleton.2 rfl)) _
  | gte v => exact hone (hr v (List.mem_singleton.2 rfl)) _
  | among vs => exact absurd rfl (hlist vs)
  | between lower upper =>
    obtain ⟨l, rfl⟩ := hr lower (by simp [Range.values])
    obtain ⟨u, rfl⟩ := hr upper (by simp [Range.values])
    have hends : (∃ n, .integer n ∈ (Range.between (.integer l) (.integer u)).values ∧
        IsOutside now n) ↔ IsOutside now l ∨ IsOutside now u := by
      simp [Range.values]
    rw [hends, ageToCreation]
    rcases agoStamp_cases now u with ⟨hout, heq⟩ | ⟨hin, v, heq⟩
    · exact Or.inl ⟨Or.inr hout, by rw [heq]⟩
    · rcases agoStamp_cases now l with ⟨hout', heq'⟩ | ⟨hin', w, heq'⟩
      · exact Or.inl ⟨Or.inl hout', by rw [heq, heq']; rfl⟩
      · exact Or.inr ⟨not_or.2 ⟨hin', hin⟩, _, by rw [heq, heq']; rfl⟩

/-- The whole part of a number overflows if it is not finite. -/
theorem wholePart_cases {x : Binary64} (hx : x ≠ .nan) :
    x.truncate? = none ∧ wholePart x = .error .overflow ∨
      ¬ x.truncate? = none ∧ ∃ v, wholePart x = .ok v := by
  unfold wholePart
  split
  next n hn => exact Or.inr ⟨by simp [hn], _, rfl⟩
  next hn => exact Or.inl ⟨hn, by rw [if_neg hx]⟩

/-- The ends of the interval around a size are numbers. -/
theorem mul_tolerance_ne_nan (n : Int) : (Binary64.ofInt n).mul tolerance.1 ≠ .nan ∧
    (Binary64.ofInt n).mul tolerance.2 ≠ .nan := by
  have hsize : Binary64.ofInt n ≠ .nan := Binary64.ofQuotient_ne_nan _ _ _
  have htolerance : tolerance =
      (.finite false 8556839292003942 (-53), .finite false 4728779608739021 (-52)) := by
    decide +kernel
  rw [htolerance]
  exact ⟨Binary64.mul_finite_ne_nan hsize (by decide), Binary64.mul_finite_ne_nan hsize (by decide)⟩

/-- The interval around a size overflows if an end of it is not finite. -/
theorem widenInteger_cases (r : Range) :
    (∃ n, r = .eq (.integer n) ∧ IsUnbounded n) ∧ widenInteger r = .error .overflow ∨
      (¬ ∃ n, r = .eq (.integer n) ∧ IsUnbounded n) ∧ ∃ s, widenInteger r = .ok s := by
  unfold widenInteger
  split
  next n =>
    obtain ⟨hlower, hupper⟩ := mul_tolerance_ne_nan n
    have hends : (∃ m, Range.eq (.integer n) = .eq (.integer m) ∧ IsUnbounded m) ↔ IsUnbounded n := by
      simp
    rw [hends]
    rcases wholePart_cases hlower with ⟨hout, heq⟩ | ⟨hin, v, heq⟩
    · exact Or.inl ⟨Or.inl hout, by rw [heq]⟩
    · rcases wholePart_cases hupper with ⟨hout', heq'⟩ | ⟨hin', w, heq'⟩
      · exact Or.inl ⟨Or.inr hout', by rw [heq, heq']⟩
      · exact Or.inr ⟨not_or.2 ⟨hin, hin'⟩, _, by rw [heq, heq']⟩
  next hnot => exact Or.inr ⟨fun ⟨n, hn, _⟩ => hnot n hn, _, rfl⟩

/-! ## Metatags -/

/-- Whether the value of a metatag reaches beyond the calendar or the finite numbers. -/
def Handler.Overreaches (now : Moment) (value : String) : Handler → Prop
  | .age => ∃ r, readRange readDuration "duration" value = .ok r ∧ (∀ vs, r ≠ .among vs) ∧
      ∃ n, .integer n ∈ r.values ∧ IsOutside now n
  | .quantity _ .filesize _ => isRoughSize value = true ∧
      ∃ n, readRange readFilesize "filesize" value = .ok (.eq (.integer n)) ∧ IsUnbounded n
  | _ => False

/-- A range of a quantity is read or refused. -/
theorem answers_readRange {read : Reader} (hread : ∀ s, FailsToRead (read s)) (kind value : String) :
    Answers (readRange read kind value) := by
  cases h : readRange read kind value with
  | ok r => exact Or.inl ⟨r, rfl⟩
  | error e =>
    obtain rfl := eq_of_readRange_eq_error hread h
    exact Or.inr ⟨_, rfl, rfl⟩

/-- A range of sizes is read or refused, unless the interval around a size is not finite. -/
theorem answersUnless_readFilesizeRange (value : String) :
    AnswersUnless (isRoughSize value = true ∧
        ∃ n, readRange readFilesize "filesize" value = .ok (.eq (.integer n)) ∧ IsUnbounded n)
      (readFilesizeRange value) := by
  unfold readFilesizeRange
  cases h : readRange readFilesize "filesize" value with
  | error e =>
    obtain rfl := eq_of_readRange_eq_error failsToRead_readFilesize h
    exact Or.inr ⟨by simp, Or.inr ⟨_, rfl, rfl⟩⟩
  | ok r =>
    dsimp only
    split
    next hrough =>
      simp only [hrough, true_and, Except.ok.injEq]
      exact (widenInteger_cases r).imp_right fun h => ⟨h.1, Or.inl h.2⟩
    next hrough => exact Or.inr ⟨fun h => hrough h.1, Or.inl ⟨r, rfl⟩⟩

/-- What an age contributes is there or refused, unless the age reaches beyond the calendar. -/
theorem answersUnless_age (viewer : Viewer) (now : Moment) (value : String) :
    AnswersUnless (Handler.age.Overreaches now value) (Handler.age.apply viewer now value) := by
  simp only [Handler.Overreaches, Handler.apply]
  cases h : readRange readDuration "duration" value with
  | error e =>
    obtain rfl := eq_of_readRange_eq_error failsToRead_readDuration h
    exact Or.inr ⟨by simp, Or.inr ⟨_, rfl, rfl⟩⟩
  | ok r =>
    have hvalues : ∀ v ∈ r.values, ∃ n, v = .integer n := by
      intro v hv
      obtain ⟨s, hs⟩ := exists_read_of_readRange h v hv
      exact exists_integer_of_readDuration hs
    refine AnswersUnless.map ?_ _
    simp only [Except.ok.injEq, exists_eq_left']
    by_cases hlist : ∀ vs, r ≠ .among vs
    · simp only [hlist, ne_eq, not_false_eq_true, implies_true, true_and]
      exact (ageToCreation_cases hvalues hlist).imp_right fun h => ⟨h.1, Or.inl h.2⟩
    · simp only [not_forall, not_not] at hlist
      obtain ⟨vs, rfl⟩ := hlist
      exact Or.inr ⟨fun h => h.1 vs rfl, Or.inr ⟨_, rfl, rfl⟩⟩

/-- What a metatag contributes is there or refused, unless its value overreaches. -/
theorem Handler.answersUnless_apply (handler : Handler) (viewer : Viewer) (now : Moment)
    (value : String) :
    AnswersUnless (handler.Overreaches now value) (handler.apply viewer now value) := by
  have hnever {α : Type} {r : Except Failure α} (h : Answers r) : AnswersUnless False r :=
    Or.inr ⟨id, h⟩
  cases handler with
  | age => exact answersUnless_age viewer now value
  | quantity column kind category =>
    refine AnswersUnless.map ?_ _
    cases kind with
    | filesize => exact answersUnless_readFilesizeRange value
    | integer => exact hnever (answers_readRange failsToRead_readIntegerValue _ _)
    | ratio => exact hnever (answers_readRange failsToRead_readRatio _ _)
    | date => exact hnever (answers_readRange failsToRead_readDate _ _)
    | mpixels => exact AnswersUnless.map (hnever (answers_readRange failsToRead_readRealValue _ _)) _
  | _ =>
    refine hnever ?_
    simp only [apply]
    repeat' split
    all_goals first
      | exact Or.inl ⟨_, rfl⟩
      | exact Or.inr ⟨_, rfl, rfl⟩

/-! ## Terms -/

section Terms

variable {config : Config} {resolve : String → String} {d : Draft} {ts : List Term}

/-- Whether the value of a metatag term reaches beyond the calendar or the finite numbers. -/
def Term.Overreaches (config : Config) (now : Moment) (t : Term) : Prop :=
  ∃ handler, (Registry.ofCategories config.categories).find? (lowerString t.name) = some handler ∧
    handler.Overreaches now (t.value.getD "")

/-- Whether the first metatag among some terms that contributes nothing is one that overreaches. -/
def Overreaching (config : Config) (viewer : Viewer) (now : Moment) : List Term → Prop
  | [] => False
  | t :: rest => t.kind = .metatag ∧ t.Overreaches config now ∨
      (t.kind = .metatag → ∃ effect, t.effect config viewer now = .ok effect) ∧
        Overreaching config viewer now rest

/-- Whether each metatag term has a metatag. -/
def Known (config : Config) (ts : List Term) : Prop :=
  ∀ t ∈ ts, t.kind = .metatag →
    ∃ handler, (Registry.ofCategories config.categories).find? (lowerString t.name) = some handler

/-- A metatag is found by each of its names. -/
theorem Registry.exists_find?_of_mem_names {r : Registry} {name : String} (h : name ∈ r.names) :
    ∃ handler, r.find? name = some handler := by
  obtain ⟨m, hm, rfl⟩ := List.mem_map.1 ((firstOfEach_sublist _ _).mem h)
  have hsome : (r.reverse.find? fun n => n.1 = m.1).isSome = true :=
    List.find?_isSome.2 ⟨m, List.mem_reverse.2 hm, by simp⟩
  obtain ⟨n, hn⟩ := Option.isSome_iff_exists.1 hsome
  exact ⟨n.2, by rw [find?, hn, Option.map_some]⟩

/-- A token that is read as a metatag term has the name of a metatag, in lower case. -/
theorem name_classifyToken {metatags : List String} {token : String}
    (h : (classifyToken metatags token).kind = .metatag) :
    (classifyToken metatags token).name ∈ metatags ∧
      lowerString (classifyToken metatags token).name = (classifyToken metatags token).name := by
  have htag (polarity : Polarity) (body : List Char) (raw : String) :
      (tagTerm polarity body raw).kind ≠ .metatag := by
    unfold tagTerm
    dsimp only
    split <;> exact nofun
  unfold classifyToken at h ⊢
  dsimp only at h ⊢
  split at h
  next => exact absurd h (htag _ _ _)
  next key v _ =>
    split at h
    next => cases h
    next hnot =>
      split at h
      next hmem =>
        rw [if_neg hnot, if_pos hmem]
        refine ⟨hmem, ?_⟩
        rw [lowerString, String.toList_ofList, lower_lower]
      next => exact absurd h (htag _ _ _)

/-- The terms of a query have metatags. -/
theorem known_of_terms {query : String} (h : terms config query = .ok ts) : Known config ts := by
  obtain ⟨tokens, -, rfl⟩ := exists_of_map_eq_ok h
  intro t ht hkind
  obtain ⟨token, -, rfl⟩ := List.mem_map.1 ((firstOfEach_sublist _ _).mem ht)
  obtain ⟨hmem, hlower⟩ := name_classifyToken hkind
  rw [hlower]
  exact Registry.exists_find?_of_mem_names hmem

/-- What a metatag term contributes is there or refused, unless its value overreaches. -/
theorem Term.answersUnless_effect {t : Term} (viewer : Viewer) (now : Moment)
    (hknown : ∃ handler, (Registry.ofCategories config.categories).find? (lowerString t.name) =
      some handler) :
    AnswersUnless (t.Overreaches config now) (t.effect config viewer now) := by
  obtain ⟨handler, hfound⟩ := hknown
  unfold Overreaches effect Registry.evaluate
  simp only [hfound, Option.some.injEq, exists_eq_left']
  exact handler.answersUnless_apply viewer now _

namespace Draft

/-- A term can be added if it is no metatag or contributes something. -/
theorem exists_addTerm_eq_ok {t : Term} (d : Draft)
    (h : t.kind = .metatag → ∃ effect, t.effect config viewer now = .ok effect) :
    ∃ e, addTerm config resolve viewer now d t = .ok e := by
  unfold addTerm
  cases hkind : t.kind with
  | metatag =>
    obtain ⟨effect, heffect⟩ := h hkind
    unfold Term.effect at heffect
    simp only [heffect]
    exact ⟨_, rfl⟩
  | _ => exact ⟨_, rfl⟩

/-- A metatag that contributes nothing cannot be added. -/
theorem addTerm_eq_error {t : Term} (d : Draft) (hkind : t.kind = .metatag)
    (h : t.effect config viewer now = .error e) :
    addTerm config resolve viewer now d t = .error e := by
  unfold Term.effect at h
  unfold addTerm
  simp only [hkind, h]

/-- The draft of some terms is there or refused, unless the first metatag that contributes nothing
overreaches. -/
theorem answersUnless_addTerms (hknown : Known config ts) (viewer : Viewer) (now : Moment) (d : Draft) :
    AnswersUnless (Overreaching config viewer now ts) (addTerms config resolve viewer now d ts) := by
  induction ts generalizing d with
  | nil => exact Or.inr ⟨id, Or.inl ⟨d, rfl⟩⟩
  | cons t rest ih =>
    obtain ⟨hthis, hrest⟩ := List.forall_mem_cons.1 hknown
    rw [addTerms]
    by_cases hpass : t.kind = .metatag → ∃ effect, t.effect config viewer now = .ok effect
    · -- the term is added, and the others decide
      have hfine : ¬ (t.kind = .metatag ∧ t.Overreaches config now) := by
        rintro ⟨hkind, hover⟩
        obtain ⟨effect, heffect⟩ := hpass hkind
        rcases Term.answersUnless_effect viewer now (hthis hkind) with ⟨-, heq⟩ | ⟨hnot, -⟩
        · rw [heffect] at heq
          cases heq
        · exact hnot hover
      have hothers : Overreaching config viewer now (t :: rest) ↔ Overreaching config viewer now rest :=
        ⟨fun h => (h.resolve_left hfine).2, fun h => Or.inr ⟨hpass, h⟩⟩
      obtain ⟨e, he⟩ : ∃ e, addTerm config resolve viewer now d t = .ok e :=
        exists_addTerm_eq_ok d hpass
      rw [he, hothers]
      exact ih hrest e
    · obtain ⟨hkind, hnone⟩ := Classical.not_imp.1 hpass
      rcases Term.answersUnless_effect viewer now (hthis hkind) with
        ⟨hover, heq⟩ | ⟨hnot, ⟨effect, heq⟩ | ⟨e, heq, he⟩⟩
      · exact Or.inl ⟨Or.inl ⟨hkind, hover⟩, by rw [addTerm_eq_error d hkind heq]⟩
      · exact absurd ⟨effect, heq⟩ hnone
      · refine Or.inr ⟨?_, Or.inr ⟨e, by rw [addTerm_eq_error d hkind heq], he⟩⟩
        rintro (h | h)
        · exact hnot h.2
        · exact hpass h.1

end Draft

/-- Terms that are not checked are refused. -/
theorem isRefusal_of_checkedTerms {query : String} (h : checkedTerms config query = .error e) :
    e.isRefusal = true := by
  unfold checkedTerms terms tokenize checkTagLimit at h
  cases htokens : tokenizeChars query.toList with
  | error position =>
    simp only [htokens, Except.map, Except.error.injEq] at h
    subst h
    rfl
  | ok tokens =>
    simp only [htokens, Except.map] at h
    split at h
    next e' heq =>
      split at heq
      · cases h
        obtain rfl := Except.error.inj heq
        rfl
      · cases heq
    next => cases h

/-- A query has a plan or is refused, unless the first of its metatags that contributes nothing
overreaches; then it fails with an overflow. -/
theorem answersUnless_compile (config : Config) (resolve : String → String) (viewer : Viewer)
    (clock : Moment) (query : String) :
    AnswersUnless (∃ ts, checkedTerms config query = .ok ts ∧
        Overreaching config viewer (referenceMoment viewer clock) ts)
      (compile config resolve viewer clock query) := by
  unfold compile
  cases hchecked : checkedTerms config query with
  | error e =>
    exact Or.inr ⟨by simp, Or.inr ⟨e, rfl, isRefusal_of_checkedTerms hchecked⟩⟩
  | ok ts =>
    have hknown : Known config ts := by
      unfold checkedTerms at hchecked
      split at hchecked
      · cases hchecked
      next us hterms =>
        obtain ⟨-, -, rfl⟩ := exists_of_map_eq_ok hchecked
        exact known_of_terms hterms
    simp only [Except.ok.injEq, exists_eq_left']
    exact (Draft.answersUnless_addTerms hknown viewer _ _).map _

end Terms

/-- An overflow is neither a result nor a refusal. -/
theorem not_answers_of_overflow {α : Type} {r : Except Failure α} (h : r = .error .overflow) :
    ¬ Answers r := by
  rintro (⟨a, ha⟩ | ⟨e, he, hrefusal⟩)
  · rw [h] at ha
    cases ha
  · rw [h] at he
    obtain rfl := Except.error.inj he
    cases hrefusal

/-- An age of 3000 years reaches back to before the year one, where there are no moments. -/
theorem not_answers_compile_age :
    Config.standard.validate = .ok .standard ∧
      ¬ Answers (compile .standard id .anonymous (Moment.ofEpoch 0) "age:3000y") := by
  refine ⟨by decide +kernel, not_answers_of_overflow ?_⟩
  decide +kernel

end Query

end Imageboard
