import Imageboard.Proofs.Query.Stating

/-!
# Whose votes a query looks at

Two relations of a post are about votes, and one metatag asks for them; the metatags that name other
users of a post have relations of their own. For a viewer who is not a moderator it asks only for the
votes of users that go by the name of the viewer, letter case aside. The same holds, condition by
condition, of each plan that is made for such a viewer, whichever polarity a condition has.
-/

namespace Imageboard.Query

variable {viewer : Viewer} {now : Moment} {config : Config}

/-- Whether a predicate looks at no votes but those of users who go by the name of the viewer. -/
def Predicate.Discreet (viewer : Viewer) : Predicate → Prop
  | .relation .upvote value | .relation .downvote value =>
    ∃ name, value = .text name ∧ viewer.isSelf name = true
  | _ => True

/-- Whether a metatag that names a user leaves votes to the metatag that is there for them. -/
def Handler.LeavesVotes : Handler → Prop
  | .user relation _ => relation ≠ .upvote ∧ relation ≠ .downvote
  | _ => True

/-- All metatags of a board leave votes to the metatag that is there for them. -/
theorem Registry.leavesVotes_of_find? {categories : Categories} {name : String} {handler : Handler}
    (h : (Registry.ofCategories categories).find? name = some handler) : handler.LeavesVotes := by
  rcases Registry.cases_of_find? h with hfixed | ⟨_, rfl⟩
  · have hall : ∀ entry ∈ Registry.fixed, entry.2.LeavesVotes := by
      simp [Registry.fixed, Handler.LeavesVotes]
    exact hall _ hfixed
  · trivial

/-- The predicate of a status does not look at votes. -/
theorem discreet_statusPredicate {status : String} {p : Option Predicate}
    (h : statusPredicate? status = some p) : ∀ q ∈ p, q.Discreet viewer := by
  unfold statusPredicate? at h
  split at h <;> cases h <;> intro q hq <;> cases hq <;> trivial

/-- For a viewer who is not a moderator, a metatag looks at no votes but those of users who go by the
name of the viewer. -/
theorem Handler.discreet_of_apply {handler : Handler} {value : String} {effect : Effect}
    (hmoderator : viewer.isModerator = false) (hleaves : handler.LeavesVotes)
    (h : handler.apply viewer now value = .ok effect) : ∀ p ∈ effect.predicate, p.Discreet viewer := by
  have hselect {p : Predicate} (hp : p.Discreet viewer) :
      ∀ q ∈ (Effect.select p).predicate, q.Discreet viewer := by
    intro q hq
    obtain rfl := Option.some.inj hq
    exact hp
  cases handler with
  | vote relation =>
    simp only [apply, hmoderator, Bool.false_or] at h
    split at h
    next name _ =>
      split at h <;> obtain rfl := Except.ok.inj h
      next hself =>
        refine hselect ?_
        unfold Predicate.Discreet
        split
        next heq => exact ⟨name, (Predicate.relation.inj heq).2.symm, hself⟩
        next heq => exact ⟨name, (Predicate.relation.inj heq).2.symm, hself⟩
        next => trivial
      next => exact hselect trivial
    next =>
      obtain rfl := Except.ok.inj h
      exact hselect trivial
  | user relation anyOrNone =>
    have hrelation (v : Value) : (Predicate.relation relation v).Discreet viewer := by
      obtain ⟨hup, hdown⟩ := hleaves
      cases relation <;> trivial
    simp only [apply] at h
    split at h
    · obtain rfl := Except.ok.inj h
      exact hselect (hrelation _)
    · split at h <;> obtain rfl := Except.ok.inj h
      · exact hselect (hrelation _)
      · exact hselect trivial
  | status =>
    simp only [apply] at h
    split at h <;> obtain rfl := Except.ok.inj h
    next p hp => exact discreet_statusPredicate hp
    next => exact hselect trivial
  | quantity column kind category =>
    obtain ⟨r, -, rfl⟩ := exists_of_map_eq_ok h
    exact hselect trivial
  | age =>
    simp only [apply] at h
    split at h
    · cases h
    · obtain ⟨r, -, rfl⟩ := exists_of_map_eq_ok h
      exact hselect trivial
  | limit =>
    simp only [apply] at h
    repeat' split at h
    all_goals first
      | cases h; done
      | obtain rfl := Except.ok.inj h; intro q hq; cases hq
  | ordfav =>
    simp only [apply] at h
    split at h <;> obtain rfl := Except.ok.inj h <;> exact hselect trivial
  | ordpool =>
    obtain rfl := Except.ok.inj h
    exact hselect (p := .relation .pool _) trivial
  | _ =>
    -- The others contribute a predicate alone, and each of these has another relation or none.
    simp only [apply] at h
    repeat' split at h
    all_goals first
      | cases h; done
      | obtain rfl := Except.ok.inj h; exact hselect trivial

/-- For a viewer who is not a moderator, the conditions of a term look at no votes but those of users
who go by the name of the viewer. -/
theorem Term.discreet_conditions {t : Term} {k : Condition} (hmoderator : viewer.isModerator = false)
    (hk : k ∈ t.conditions config viewer now) : k.predicate.Discreet viewer := by
  unfold Term.conditions at hk
  split at hk
  · split at hk
    next effect heffect =>
      obtain ⟨p, hp, rfl⟩ := Option.map_eq_some_iff.1 (Option.mem_toList.1 hk)
      unfold Term.effect Registry.evaluate at heffect
      split at heffect
      next handler hfound =>
        exact Handler.discreet_of_apply hmoderator (Registry.leavesVotes_of_find? hfound) heffect p hp
      next => cases heffect
    next => simp at hk
  · simp at hk

/-- The filters of a viewer do not look at votes. -/
theorem Draft.discreet_viewerConditions {showsDeleted : Bool} {k : Condition}
    (hk : k ∈ Draft.viewerConditions viewer showsDeleted) : k.predicate.Discreet viewer := by
  rcases Draft.cases_of_mem_viewerConditions hk with rfl | rfl <;> trivial

/-- The plan of a viewer who is not a moderator looks at no votes but those of users who go by the name
of the viewer. -/
theorem discreet_of_compile {resolve : String → String} {clock : Moment} {query : String} {plan : Plan}
    (hmoderator : viewer.isModerator = false)
    (h : compile config resolve viewer clock query = .ok plan) :
    ∀ k ∈ plan.conditions, k.predicate.Discreet viewer := by
  obtain ⟨ts, d, -, hd, rfl⟩ := extends_of_compile h
  intro k hk
  rcases List.mem_append.1 hk with hk | hk
  · rw [(extends_of_draftOf hd).conditions, Draft.empty, List.nil_append, List.mem_flatMap] at hk
    obtain ⟨t, -, hk⟩ := hk
    exact Term.discreet_conditions hmoderator hk
  · exact Draft.discreet_viewerConditions hk

end Imageboard.Query
