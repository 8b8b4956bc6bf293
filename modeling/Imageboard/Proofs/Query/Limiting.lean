import Imageboard.Proofs.Query.Drafting

/-!
# The limits of plans

A plan has the limit that the last metatag for one says, and no query sets a limit below zero, because
such a value is refused.
-/

namespace Imageboard.Query

/-- No metatag contributes a limit below zero. -/
theorem Handler.nonneg_of_apply {handler : Handler} {viewer : Viewer} {now : Moment} {value : String}
    {effect : Effect} (h : handler.apply viewer now value = .ok effect) : ∀ k ∈ effect.limit, 0 ≤ k := by
  have hselect (p : Predicate) : ∀ k ∈ (Effect.select p).limit, 0 ≤ k := by simp [Effect.select]
  cases handler with
  | limit =>
    simp only [apply] at h
    split at h
    next n _ =>
      split at h
      · cases h
      next hn =>
        obtain rfl := Except.ok.inj h
        simpa using hn
    next => cases h
  | quantity column kind category =>
    obtain ⟨r, -, rfl⟩ := exists_of_map_eq_ok h
    exact hselect _
  | age =>
    simp only [apply] at h
    split at h
    · cases h
    · obtain ⟨r, -, rfl⟩ := exists_of_map_eq_ok h
      exact hselect _
  | _ =>
    simp only [apply] at h
    repeat' split at h
    all_goals first
      | cases h; done
      | obtain rfl := Except.ok.inj h; simp [Effect.select, Effect.selectAndOrder]

variable {config : Config} {resolve : String → String} {viewer : Viewer} {now : Moment}

/-- Adding a term to a draft leaves no limit below zero. -/
theorem Draft.nonneg_addTerm {d e : Draft} {t : Term} (hd : ∀ k ∈ d.limit, 0 ≤ k)
    (h : addTerm config resolve viewer now d t = .ok e) : ∀ k ∈ e.limit, 0 ≤ k := by
  have hfilter (polarity : Polarity) (f : TagFilter) : (d.addFilter polarity f).limit = d.limit := by
    cases polarity <;> rfl
  unfold addTerm at h
  cases hkind : t.kind with
  | order =>
    simp only [hkind] at h
    obtain rfl := Except.ok.inj h
    exact hd
  | metatag =>
    simp only [hkind] at h
    split at h
    · contradiction
    next effect heffect =>
      obtain rfl := Except.ok.inj h
      have heffect' : ∀ k ∈ effect.limit, 0 ≤ k := by
        unfold Registry.evaluate at heffect
        split at heffect
        · exact Handler.nonneg_of_apply heffect
        · contradiction
      intro k hk
      simp only [addEffect, Option.mem_def, Option.or_eq_some_iff] at hk
      rcases hk with hk | ⟨-, hk⟩
      · exact heffect' k hk
      · exact hd k hk
  | _ =>
    simp only [hkind] at h
    obtain rfl := Except.ok.inj h
    rwa [hfilter]

/-- Adding terms to a draft leaves no limit below zero. -/
theorem Draft.nonneg_addTerms {d e : Draft} {ts : List Term} (hd : ∀ k ∈ d.limit, 0 ≤ k)
    (h : addTerms config resolve viewer now d ts = .ok e) : ∀ k ∈ e.limit, 0 ≤ k := by
  induction ts generalizing d with
  | nil =>
    obtain rfl := Except.ok.inj h
    exact hd
  | cons t rest ih =>
    rw [addTerms] at h
    split at h
    · contradiction
    next m hfirst => exact ih (nonneg_addTerm hd hfirst) h

/-- No plan has a limit below zero. -/
theorem nonneg_of_compile {clock : Moment} {query : String} {plan : Plan}
    (h : compile config resolve viewer clock query = .ok plan) : ∀ k ∈ plan.limit, 0 ≤ k := by
  obtain ⟨ts, d, -, hd, rfl⟩ := extends_of_compile h
  unfold draftOf at hd
  split at hd
  · contradiction
  · exact Draft.nonneg_addTerms (d := .empty) (by simp [Draft.empty]) hd

end Imageboard.Query
